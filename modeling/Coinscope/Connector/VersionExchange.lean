/-
# Connector.VersionExchange -- the two sides of the handshake

A handler that made its connection sends a version from its constructor; one that accepted
it answers the version of the peer from `do_read`.  The two paths are written separately:
the first never sends a verack, and the second gives `get_version` its two addresses the
other way round.

* `Shaken` -- the handshake a handler owes: a version with the two addresses in their
  fields, then a verack.
* `Peer.ownMessages` -- what a handler queues by itself in a run.
* `Spoke` -- what each part of a callback adds to it.
* `handshake_iff` -- which handlers have made the handshake when it is over.
-/
import Coinscope.Connector.Outgoing
import Coinscope.Connector.Endpoints
import Coinscope.Connector.Terminal

namespace Coinscope.Connector

open Coinscope.Shared
open Coinscope.Theory.Bytes
open Coinscope.Theory.Runs

set_option autoImplicit false

/-! ## Messages of the handshake -/

/-- The message has this command. -/
def hasCommand (word : List Char) (m : PackedMessage) : Bool :=
  decide (m.command.take 12 = commandField (ascii word))

def isVersion : PackedMessage → Bool := hasCommand ['v', 'e', 'r', 's', 'i', 'o', 'n']
def isVerack : PackedMessage → Bool := hasCommand ['v', 'e', 'r', 'a', 'c', 'k']

/-- The versions and veracks among some messages. -/
def handshakes (messages : List PackedMessage) : List PackedMessage :=
  messages.filter fun m => isVersion m || isVerack m

theorem handshakes_append (a b : List PackedMessage) :
    handshakes (a ++ b) = handshakes a ++ handshakes b := List.filter_append ..

/-- The `recv` field of a version message. -/
def recvField (m : PackedMessage) : List UInt8 := slice (packedSize + 20) 26 m.wire

/-- The `from` field of a version message. -/
def fromField (m : PackedMessage) : List UInt8 := slice (packedSize + 46) 26 m.wire

/-- The field is what `set_address` makes of the address, in whatever memory. -/
def Encodes (field : List UInt8) (addr : SockaddrStorage) : Prop :=
  ∃ memory, field = setAddress memory addr

/-- One version that names the two ends in their fields, and one verack behind it. -/
def Shaken (remote external : SockaddrStorage) (own : List PackedMessage) : Prop :=
  ∃ version verack, handshakes own = [version, verack] ∧ isVersion version = true ∧
    isVerack verack = true ∧ Encodes (recvField version) remote ∧
    Encodes (fromField version) external

/-! ## The messages a handler makes -/

theorem command_getMessage (cfg : Config) (word payload : List UInt8) :
    (getMessage cfg word payload).command.take 12 = commandField word := by
  have size : (commandField word).length = 12 := by
    simp [commandField]
    omega
  simp only [PackedMessage.command, getMessage, messageHeader, List.append_assoc]
  rw [List.drop_left' (length_le ..), List.take_left' size]

theorem hasCommand_getMessage (cfg : Config) (word word' : List Char) (payload : List UInt8) :
    hasCommand word (getMessage cfg (ascii word') payload) =
      decide (commandField (ascii word') = commandField (ascii word)) := by
  rw [hasCommand, command_getMessage]

/-- A pong starts with the letter of its ping. -/
theorem command_pong (m : PackedMessage) :
    (Handler.pong m).command.take 1 = m.command.take 1 := by
  have wire := m.wire_length
  have size : packedSize = 24 := rfl
  have room := le_allocatedFor (packedSize + m.length)
  have copied : (WrappedBuffer.blit (WrappedBuffer.ofSize (packedSize + m.length)) 0
      m.wire).length = allocatedFor (packedSize + m.length) := by
    rw [WrappedBuffer.length_blit (by simp [wire]; omega), WrappedBuffer.length_ofSize]
  show slice 4 1 (Handler.pongBuffer m) = slice 4 1 m.buffer
  rw [Handler.pongBuffer, WrappedBuffer.slice_blit_before _ (by omega) (by decide),
    WrappedBuffer.blit, List.take_zero, List.nil_append, slice_append_left _ (by omega),
    PackedMessage.wire, slice_take _ (by omega)]

/-- The answer to a ping is neither. -/
theorem handshakes_pong {m : PackedMessage}
    (asked : cString m.command = ascii ['p', 'i', 'n', 'g']) :
    handshakes [Handler.pong m] = [] := by
  have letter : m.command.take 1 = ascii ['p'] := by
    cases command : m.command with
    | nil =>
        rw [command] at asked
        exact absurd asked (by decide)
    | cons b rest =>
        rw [command, cString, List.takeWhile_cons] at asked
        split at asked
        · injection asked with first
          rw [first]
          rfl
        · exact absurd asked (by decide)
  have other : ∀ word : List Char, (commandField (ascii word)).take 1 ≠ ascii ['p'] →
      hasCommand word (Handler.pong m) = false := by
    intro word different
    rw [hasCommand, decide_eq_false_iff_not]
    intro same
    apply different
    rw [← same, List.take_take, ← letter, ← command_pong]
    rfl
  have version : isVersion (Handler.pong m) = false := other _ (by decide)
  have verack : isVerack (Handler.pong m) = false := other _ (by decide)
  simp [handshakes, version, verack]

/-- The version a handler makes with its arguments in this order. -/
def versionMessage (cfg : Config) (env : VersionEnv) (lastBlock : Int)
    (fromAddr recvAddr : SockaddrStorage) : PackedMessage :=
  getMessage cfg (ascii ['v', 'e', 'r', 's', 'i', 'o', 'n'])
    (getVersion cfg env lastBlock fromAddr recvAddr)

def verackMessage (cfg : Config) : PackedMessage :=
  getMessage cfg (ascii ['v', 'e', 'r', 'a', 'c', 'k']) []

theorem isVersion_versionMessage (cfg : Config) (env : VersionEnv) (lastBlock : Int)
    (fromAddr recvAddr : SockaddrStorage) :
    isVersion (versionMessage cfg env lastBlock fromAddr recvAddr) = true := by
  rw [isVersion, versionMessage, hasCommand_getMessage]
  decide

theorem isVerack_verackMessage (cfg : Config) : isVerack (verackMessage cfg) = true := by
  rw [isVerack, verackMessage, hasCommand_getMessage]
  decide

section Addresses

variable (memory : NetAddrMemory) (addr : SockaddrStorage)

theorem length_sinAddr : addr.sinAddr.length = 4 := slice_length (by rw [addr.size]; decide)

theorem length_sin6Addr : addr.sin6Addr.length = 16 := slice_length (by rw [addr.size]; decide)

theorem length_port : addr.port.length = 2 := slice_length (by rw [addr.size]; decide)

/-- The memory behind the `bzero` of `set_address`. -/
theorem length_cleared : (WrappedBuffer.blit (WrappedBuffer.blit memory.bytes 0 (le 8 SERVICES)) 0
    (List.replicate (26 - 8 - 2) 0)).length = 26 := by
  rw [WrappedBuffer.length_blit, WrappedBuffer.length_blit, memory.size]
  · rw [memory.size, length_le]
    decide
  · rw [WrappedBuffer.length_blit, memory.size, List.length_replicate]
    · decide
    · rw [memory.size, length_le]
      decide

theorem length_setAddress : (setAddress memory addr).length = 26 := by
  have cleared := length_cleared memory
  have four := length_sinAddr addr
  have sixteen := length_sin6Addr addr
  have two := length_port addr
  unfold setAddress
  simp only
  generalize WrappedBuffer.blit (WrappedBuffer.blit memory.bytes 0 (le 8 SERVICES)) 0
    (List.replicate (26 - 8 - 2) 0) = bytes at cleared ⊢
  split
  · simp [WrappedBuffer.blit, cleared, four, two]
  · split
    · simp [WrappedBuffer.blit, cleared, sixteen, two]
    · exact cleared

/-- An IPv4 address and its port stand at the end of the field. -/
theorem setAddress_inet (inet : addr.family = AF_INET) :
    slice 20 4 (setAddress memory addr) = addr.sinAddr ∧
      slice 24 2 (setAddress memory addr) = addr.port := by
  have cleared := length_cleared memory
  have four := length_sinAddr addr
  unfold setAddress
  simp only [if_pos inet]
  generalize WrappedBuffer.blit (WrappedBuffer.blit memory.bytes 0 (le 8 SERVICES)) 0
    (List.replicate (26 - 8 - 2) 0) = bytes at cleared ⊢
  have padded : (WrappedBuffer.blit (WrappedBuffer.blit bytes 18 [0xFF]) 19 [0xFF]).length = 26 := by
    simp [WrappedBuffer.blit, cleared]
  generalize WrappedBuffer.blit (WrappedBuffer.blit bytes 18 [0xFF]) 19 [0xFF] = bytes at padded ⊢
  have placed : (WrappedBuffer.blit bytes 20 addr.sinAddr).length = 26 := by
    rw [WrappedBuffer.length_blit (by omega), padded]
  constructor
  · rw [WrappedBuffer.slice_blit_before _ (by omega) (by decide),
      WrappedBuffer.slice_blit (by omega) four]
  · exact WrappedBuffer.slice_blit (by omega) (length_port addr)

end Addresses

/-- The field of one IPv4 address encodes another exactly if they and their ports are the
same. -/
theorem encodes_inet_iff (memory : NetAddrMemory) {a b : SockaddrStorage}
    (inet : a.family = AF_INET) (inet' : b.family = AF_INET) :
    Encodes (setAddress memory a) b ↔ a.sinAddr = b.sinAddr ∧ a.port = b.port := by
  constructor
  · rintro ⟨memory', same⟩
    obtain ⟨addr, port⟩ := setAddress_inet memory a inet
    obtain ⟨addr', port'⟩ := setAddress_inet memory' b inet'
    exact ⟨by rw [← addr, same, addr'], by rw [← port, same, port']⟩
  · rintro ⟨addr, port⟩
    refine ⟨memory, ?_⟩
    simp only [setAddress, inet, inet', addr, port, if_true]

/-- The size of a version payload. -/
def versionSize (cfg : Config) : Nat := 85 + (varString cfg.userAgent).length

/-- The length field of the message counts 32 bits of the size; it must not cut the two
addresses off. -/
def AddressesFit (cfg : Config) : Prop := 72 ≤ versionSize cfg % 256 ^ 4

theorem length_getVersion (cfg : Config) (env : VersionEnv) (lastBlock : Int)
    (fromAddr recvAddr : SockaddrStorage) :
    (getVersion cfg env lastBlock fromAddr recvAddr).length = versionSize cfg := by
  simp [getVersion, length_setAddress, versionSize, le32]
  omega

theorem length_versionMessage (cfg : Config) (env : VersionEnv) (lastBlock : Int)
    (fromAddr recvAddr : SockaddrStorage) :
    (versionMessage cfg env lastBlock fromAddr recvAddr).length = versionSize cfg % 256 ^ 4 := by
  show packedLength (messageHeader cfg _ _ ++ _) = _
  rw [packedLength_messageHeader, length_getVersion]

/-- Twenty-six bytes of the payload, where the length field covers them. -/
theorem slice_versionMessage (cfg : Config) (env : VersionEnv) (lastBlock : Int)
    (fromAddr recvAddr : SockaddrStorage) {off : Nat}
    (covered : off + 26 ≤ versionSize cfg % 256 ^ 4) :
    slice (packedSize + off) 26 (versionMessage cfg env lastBlock fromAddr recvAddr).wire =
      slice off 26 (getVersion cfg env lastBlock fromAddr recvAddr) := by
  have some_ : ¬ (getVersion cfg env lastBlock fromAddr recvAddr).length % 256 ^ 4 = 0 := by
    rw [length_getVersion]
    omega
  rw [PackedMessage.wire, length_versionMessage, slice_take _ (by omega)]
  show slice _ 26 (messageHeader cfg _ _ ++ if _ then [] else _) = _
  rw [if_neg some_, slice_append_right _ (by rw [messageHeader_length]; omega),
    messageHeader_length, Nat.add_sub_cancel_left]

/-- The address fields of a version message, where the length field covers them. -/
theorem versionMessage_fields (cfg : Config) (env : VersionEnv) (lastBlock : Int)
    (fromAddr recvAddr : SockaddrStorage) (fit : AddressesFit cfg) :
    recvField (versionMessage cfg env lastBlock fromAddr recvAddr) =
        setAddress env.recvAddr recvAddr ∧
      fromField (versionMessage cfg env lastBlock fromAddr recvAddr) =
        setAddress env.fromAddr fromAddr := by
  unfold AddressesFit at fit
  constructor
  · rw [recvField, slice_versionMessage cfg env lastBlock fromAddr recvAddr (by omega), getVersion]
    simp only [List.append_assoc]
    rw [slice_append_right _ (by simp), slice_append_right _ (by simp),
      slice_append_right _ (by simp), slice]
    simp [List.take_left' (length_setAddress ..)]
  · rw [fromField, slice_versionMessage cfg env lastBlock fromAddr recvAddr (by omega), getVersion]
    simp only [List.append_assoc]
    rw [slice_append_right _ (by simp), slice_append_right _ (by simp),
      slice_append_right _ (by simp), slice_append_right _ (by simp [length_setAddress]), slice]
    simp [length_setAddress, List.take_left' (length_setAddress ..)]

/-- Where it does not, one of them is cut off. -/
theorem fromField_cut (cfg : Config) (env : VersionEnv) (lastBlock : Int)
    (fromAddr recvAddr : SockaddrStorage) (cut : ¬ AddressesFit cfg) :
    (fromField (versionMessage cfg env lastBlock fromAddr recvAddr)).length ≠ 26 := by
  unfold AddressesFit at cut
  have size : packedSize = 24 := rfl
  rw [fromField, slice, List.length_take, List.length_drop, PackedMessage.wire_length,
    length_versionMessage]
  omega

/-! ## What a handler says -/

/-- The version of the peer has been handled. -/
def isDone (recv : UInt32) : Bool := decide (recv = RECV_HEADER ∨ recv = RECV_PAYLOAD)

/-- The states of a handler that accepted its connection. -/
def isAccepting (recv : UInt32) : Bool := replying recv || isDone recv

/-- From one handler to the other messages were appended, none of the handshake, or just the
answer to the version of the peer: a version with the two addresses swapped, and a verack. -/
inductive Spoke (cfg : Config) (env : VersionEnv) (h h' : Handler) : Prop where
  | nothing (new : List PackedMessage) (log : appended h'.log = appended h.log ++ new)
      (none_ : handshakes new = [])
      (same : replying (h'.state &&& RECV_MASK) = replying (h.state &&& RECV_MASK))
  | reply (new : List PackedMessage) (lastBlock : Int)
      (log : appended h'.log = appended h.log ++ new)
      (both : handshakes new =
        [versionMessage cfg env lastBlock h.remoteAddr cfg.external, verackMessage cfg])
      (before : replying (h.state &&& RECV_MASK) = true)
      (after : replying (h'.state &&& RECV_MASK) = false)

namespace Handler

theorem handshakes_getMessage (cfg : Config) {word : List Char} (payload : List UInt8)
    (noVersion : commandField (ascii word) ≠ commandField (ascii ['v', 'e', 'r', 's', 'i', 'o', 'n']))
    (noVerack : commandField (ascii word) ≠ commandField (ascii ['v', 'e', 'r', 'a', 'c', 'k'])) :
    handshakes [getMessage cfg (ascii word) payload] = [] := by
  have version : isVersion (getMessage cfg (ascii word) payload) = false := by
    rw [isVersion, hasCommand_getMessage]
    exact decide_eq_false noVersion
  have verack : isVerack (getMessage cfg (ascii word) payload) = false := by
    rw [isVerack, hasCommand_getMessage]
    exact decide_eq_false noVerack
  simp [handshakes, version, verack]

/-- A message that is handled is answered by a pong, by an inv, or not at all. -/
theorem handleMessageRecv_speaks (cfg : Config) (h : Handler) (lastBlock : Int)
    (m : PackedMessage) :
    ∃ new, appended (h.handleMessageRecv cfg lastBlock m).1.log = appended h.log ++ new ∧
      handshakes new = [] := by
  have logged : appended (h.gLog (.bitcoinMsg h.id false m)).log = appended h.log := by
    simp [gLog, appended]
  have reacted := handleMessageRecv_reacted cfg h lastBlock m
  generalize (h.handleMessageRecv cfg lastBlock m).1 = h' at reacted ⊢
  cases reacted with
  | ping asked =>
      refine ⟨[pong m], ?_, handshakes_pong asked⟩
      rw [appendForWriteShared, (appendedForWrite_appended ..).log, appended_append, logged]
      rfl
  | getblocks =>
      refine ⟨[getMessage cfg (ascii ['i', 'n', 'v']) (getInv [])], ?_,
        handshakes_getMessage cfg _ (by decide) (by decide)⟩
      rw [appendForWrite, (appendedForWrite_appended ..).log, appended_append, logged]
      rfl
  | verack => exact ⟨[], by rw [List.append_nil]; exact logged, rfl⟩
  | unexpected =>
      refine ⟨[], ?_, rfl⟩
      rw [List.append_nil, gLog, appended_append, logged]
      simp [appended]
  | nothing => exact ⟨[], by rw [List.append_nil]; exact logged, rfl⟩

theorem handleMessage_speaks (cfg : Config) (h : Handler) (lastBlock : Int) :
    ∃ new, appended (h.handleMessage cfg lastBlock).1.log = appended h.log ++ new ∧
      handshakes new = [] := by
  unfold handleMessage withMessage
  split
  · exact handleMessageRecv_speaks cfg h lastBlock _
  · exact ⟨[], by simp [abort], rfl⟩

theorem replyVersion_speaks (cfg : Config) (env : VersionEnv) (h : Handler) (lastBlock : Int) :
    appended (h.replyVersion cfg env lastBlock).log = appended h.log ++
      [versionMessage cfg env lastBlock h.remoteAddr cfg.external, verackMessage cfg] := by
  show appended ((h.appendForWrite _).appendForWrite _).log = _
  rw [appendForWrite, (appendedForWrite_appended ..).log, appended_append, appendForWrite,
    (appendedForWrite_appended ..).log, appended_append, List.append_assoc]
  rfl

theorem handshakes_reply (cfg : Config) (env : VersionEnv) (lastBlock : Int)
    (fromAddr recvAddr : SockaddrStorage) :
    handshakes [versionMessage cfg env lastBlock fromAddr recvAddr, verackMessage cfg] =
      [versionMessage cfg env lastBlock fromAddr recvAddr, verackMessage cfg] := by
  simp [handshakes, isVersion_versionMessage, isVerack_verackMessage]

/-- The `switch` of `do_read`. -/
theorem Switched.spoke {cfg : Config} {env : VersionEnv} {h h' : Handler} {lastBlock : Int}
    (switched : Switched cfg env h lastBlock h') (kept : Kept h)
    (full : FullPhase (h.state &&& RECV_MASK) h.readQueue.held (received h.log)) :
    Spoke cfg env h h' ∧ (isAccepting (h.state &&& RECV_MASK) = true →
      isAccepting (h'.state &&& RECV_MASK) = true) := by
  cases switched with
  | @body r state =>
      have recv' : (h.sized.receiving r).state &&& RECV_MASK = r &&& RECV_MASK :=
        recv_receiving ..
      rw [recv']
      constructor
      · refine .nothing [] (by simp [receiving, sized]) rfl ?_
        rw [recv']
        rcases state with ⟨recv, rfl, -⟩ | ⟨recv, rfl⟩ | ⟨recv, rfl⟩ <;> rw [recv] <;> decide
      · rcases state with ⟨recv, rfl, -⟩ | ⟨recv, rfl⟩ | ⟨recv, rfl⟩ <;> rw [recv] <;> decide
  | empty recv nothing =>
      obtain ⟨-, handled⟩ := empty_handled cfg lastBlock kept full recv nothing
      have back : (h.sized.handleMessage cfg lastBlock).1.state &&& RECV_MASK = RECV_HEADER :=
        handled.recv.trans recv
      obtain ⟨new, log, none_⟩ := handleMessage_speaks cfg h.sized lastBlock
      exact ⟨.nothing new log none_ (by rw [back, recv]), by rw [back, recv]; exact fun here => here⟩
  | payload state =>
      obtain ⟨new, log, none_⟩ := handleMessage_speaks cfg h lastBlock
      have recv' : ((h.handleMessage cfg lastBlock).1.receiving RECV_HEADER).state &&& RECV_MASK =
          RECV_HEADER := (recv_receiving ..).trans (by decide)
      refine ⟨.nothing new log none_ ?_, by rw [recv']; exact fun _ => rfl⟩
      rw [recv']
      rcases state with recv | recv <;> rw [recv] <;> decide
  | reply recv =>
      obtain ⟨new, log, none_⟩ := handleMessage_speaks cfg h lastBlock
      have remote := (handleMessage_ends cfg h lastBlock).remoteAddr
      have recv' : ((h.handleMessage cfg lastBlock).1.replyVersion cfg env
          (h.handleMessage cfg lastBlock).2).state &&& RECV_MASK = RECV_HEADER := by
        show (SEND_VERSION_REPLY ||| RECV_HEADER) &&& RECV_MASK = RECV_HEADER
        decide
      refine ⟨.reply (new ++ [versionMessage cfg env (h.handleMessage cfg lastBlock).2 h.remoteAddr
        cfg.external, verackMessage cfg]) (h.handleMessage cfg lastBlock).2 ?_ ?_ ?_ ?_, ?_⟩
      · rw [replyVersion_speaks, log, remote, List.append_assoc]
      · rw [handshakes_append, none_, handshakes_reply, List.nil_append]
      · rw [recv]
        decide
      · rw [recv']
        decide
      · rw [recv']
        exact fun _ => rfl

end Handler

/-- One part of a callback after the other. -/
theorem Spoke.trans {cfg : Config} {env : VersionEnv} {a b c : Handler}
    (first : Spoke cfg env a b) (second : Spoke cfg env b c)
    (remote : b.remoteAddr = a.remoteAddr) : Spoke cfg env a c := by
  rcases first with ⟨new, log, none_, same⟩ | ⟨new, lastBlock, log, both, before, after⟩
  · rcases second with ⟨new', log', none_', same'⟩ | ⟨new', lastBlock, log', both, before, after⟩
    · refine .nothing (new ++ new') (by rw [log', log, List.append_assoc]) ?_ (same'.trans same)
      rw [handshakes_append, none_, none_']
      rfl
    · refine .reply (new ++ new') lastBlock (by rw [log', log, List.append_assoc]) ?_
        (same ▸ before) after
      rw [handshakes_append, none_, both, remote]
      rfl
  · rcases second with ⟨new', log', none_', same'⟩ | ⟨new', _, _, _, again, _⟩
    · refine .reply (new ++ new') lastBlock (by rw [log', log, List.append_assoc]) ?_ before
        (same'.trans after)
      rw [handshakes_append, none_', both, List.append_nil]
    · rw [after] at again
      cases again

theorem Spoke.refl (cfg : Config) (env : VersionEnv) (h : Handler) : Spoke cfg env h h :=
  .nothing [] (List.append_nil _).symm rfl rfl

namespace Handler

theorem Reading.spoke {cfg : Config} {env : VersionEnv} {h h' : Handler}
    {inbox : List RecvResult} (reading : Reading cfg env h inbox h') (sound : Sound h) :
    Spoke cfg env h h' ∧ (isAccepting (h.state &&& RECV_MASK) = true →
      isAccepting (h'.state &&& RECV_MASK) = true) := by
  induction reading with
  | sated => exact ⟨.refl cfg env _, fun here => here⟩
  | blocked =>
      exact ⟨.nothing [] (by simp [filled]) rfl rfl, fun here => here⟩
  | ended =>
      refine ⟨.nothing [] ?_ rfl rfl, fun here => here⟩
      simp [filled, suicide, gLogBitcoin, gLog, appended]
  | @round h inbox bytes lastBlock h' hungry valid full next ih =>
      obtain ⟨kept, phase, processed⟩ := round_processed cfg env lastBlock sound hungry valid full
      obtain ⟨first, accepting⟩ :=
        (process_switched cfg env lastBlock kept phase).spoke kept phase
      obtain ⟨later, accepting'⟩ := ih processed.sound
      have filled : Spoke cfg env h (h.filled (h.readQueue.fill inbox)) :=
        .nothing [] (List.append_nil _).symm rfl rfl
      have remote : ((h.filled (h.readQueue.fill inbox)).process cfg env lastBlock).1.remoteAddr =
          h.remoteAddr := (process_ends cfg env (h.filled _) lastBlock).remoteAddr
      exact ⟨(filled.trans first rfl).trans later remote,
        fun here => accepting' (accepting here)⟩

/-- `do_write` appends nothing, and moves on only from `SEND_VERSION_INIT`. -/
theorem doWrite_silent (cfg : Config) {h : Handler} (sound : Sound h)
    (outbox : List WriteResult) :
    appended (h.doWrite cfg outbox).log = appended h.log ∧
      replying ((h.doWrite cfg outbox).state &&& RECV_MASK) = replying (h.state &&& RECV_MASK) ∧
      (isAccepting (h.state &&& RECV_MASK) = true →
        isAccepting ((h.doWrite cfg outbox).state &&& RECV_MASK) = true) := by
  have flushed := flushed_sound sound outbox
  generalize write : WriteBuffer.flush h.io.fd outbox h.writeQueue = s at flushed
  have done : ∀ k : Handler, k = (if s.queue.toWrite = 0 then
        ({ h with writeQueue := s.queue, sent := h.sent ++ s.put } : Handler).drained
        else { h with writeQueue := s.queue, sent := h.sent ++ s.put }) →
      appended k.log = appended h.log ∧
      replying (k.state &&& RECV_MASK) = replying (h.state &&& RECV_MASK) ∧
      (isAccepting (h.state &&& RECV_MASK) = true → isAccepting (k.state &&& RECV_MASK) = true) := by
    rintro k rfl
    split
    · rcases drained_cases flushed with ⟨only, result⟩ | ⟨-, result⟩
      · have idle : h.state &&& RECV_MASK = 0 := sound.init (init_of_send only)
        have inside : RECV_VERSION_INIT_HDR &&& RECV_MASK = RECV_VERSION_INIT_HDR := by decide
        rw [result]
        refine ⟨rfl, ?_, ?_⟩
        · rw [idle]
          show replying (RECV_VERSION_INIT_HDR &&& RECV_MASK) = _
          rw [inside]
          decide
        · rw [idle]
          intro no
          exact absurd no (by decide)
      · rw [result]
        refine ⟨rfl, ?_, ?_⟩
        · show replying ((h.state &&& RECV_MASK) &&& RECV_MASK) = _
          rw [recv_recv]
        · intro here
          show isAccepting ((h.state &&& RECV_MASK) &&& RECV_MASK) = true
          rw [recv_recv]
          exact here
    · exact ⟨rfl, rfl, fun here => here⟩
  unfold doWrite
  rw [write]
  simp only
  split
  · exact done _ rfl
  · exact done _ rfl
  · refine ⟨?_, rfl, fun here => here⟩
    simp [suicide, gLogBitcoin, gLog, appended]
  · exact done _ rfl

theorem doWrite_spoke (cfg : Config) (env : VersionEnv) {h : Handler} (sound : Sound h)
    (outbox : List WriteResult) :
    Spoke cfg env h (h.doWrite cfg outbox) ∧ (isAccepting (h.state &&& RECV_MASK) = true →
      isAccepting ((h.doWrite cfg outbox).state &&& RECV_MASK) = true) := by
  obtain ⟨log, same, accepting⟩ := doWrite_silent cfg sound outbox
  exact ⟨.nothing [] (by rw [log, List.append_nil]) rfl same, accepting⟩

theorem ioCb_spoke (cfg : Config) (env : VersionEnv) {h : Handler} (sound : Sound h)
    (lastBlock : Int) (revents : Events) (inbox : List RecvResult) (outbox : List WriteResult) :
    Spoke cfg env h (h.ioCb cfg env lastBlock revents inbox outbox).1 ∧
      (isAccepting (h.state &&& RECV_MASK) = true → isAccepting
        ((h.ioCb cfg env lastBlock revents inbox outbox).1.state &&& RECV_MASK) = true) := by
  by_cases live : h.io.fd = -1
  · rw [ioCb, if_pos live]
    exact ⟨.refl cfg env h, fun here => here⟩
  · obtain ⟨r, w, read, write, set⟩ := ioCb_called cfg env live lastBlock revents inbox outbox
    have taken : Sound r ∧ r.remoteAddr = h.remoteAddr ∧ Spoke cfg env h r ∧
        (isAccepting (h.state &&& RECV_MASK) = true →
          isAccepting (r.state &&& RECV_MASK) = true) := by
      rcases read with ⟨busy, -, rfl⟩ | ⟨-, rfl⟩
      · have reading := doRead_reading cfg env lastBlock inbox sound
        exact ⟨(reading.read sound busy).sound, (doReadAux_ends ..).remoteAddr,
          reading.spoke sound⟩
      · exact ⟨sound, rfl, .refl cfg env _, fun here => here⟩
    obtain ⟨sounder, remote, spoke, accepting⟩ := taken
    have written : Spoke cfg env h w ∧ (isAccepting (h.state &&& RECV_MASK) = true →
        isAccepting (w.state &&& RECV_MASK) = true) := by
      rcases write with ⟨-, rfl⟩ | ⟨-, rfl⟩
      · obtain ⟨later, accepting'⟩ := doWrite_spoke cfg env sounder outbox
        exact ⟨spoke.trans later remote, fun here => accepting' (accepting here)⟩
      · exact ⟨spoke, accepting⟩
    have same := ioSet_sameWrites w ⟨w.state &&& RECV_MASK ≠ 0, w.state &&& SEND_MASK ≠ 0⟩
    have recv := (ioSet_sameReads w ⟨w.state &&& RECV_MASK ≠ 0, w.state &&& SEND_MASK ≠ 0⟩).recv
    rw [set]
    refine ⟨?_, fun here => by rw [recv]; exact written.2 here⟩
    rcases written.1 with ⟨new, log, none_, still⟩ | ⟨new, last, log, both, before, after⟩
    · exact .nothing new (by rw [same.appended, log]) none_ (by rw [recv, still])
    · exact .reply new last (by rw [same.appended, log]) both before (by rw [recv, after])

end Handler

/-! ## Every run -/

namespace Peer

/-- What a handler appends by itself in a step: everything but the messages of a command. -/
def owned (cfg : Config) (p : Peer) : PeerEvent → List PackedMessage
  | .send _ => []
  | e => (appended (p.step cfg e).handler.log).drop (appended p.handler.log).length

/-- What a handler appends by itself in a run. -/
def ownMessages (cfg : Config) : Peer → List PeerEvent → List PackedMessage
  | _, [] => []
  | p, e :: rest => p.owned cfg e ++ ownMessages cfg (p.step cfg e) rest

theorem ownMessages_append (cfg : Config) (p : Peer) (events : List PeerEvent) (e : PeerEvent) :
    ownMessages cfg p (events ++ [e]) =
      ownMessages cfg p events ++ (run (step cfg) p events).owned cfg e := by
  induction events generalizing p with
  | nil => simp [ownMessages]
  | cons first rest ih =>
      rw [List.cons_append, ownMessages, ih, ownMessages, List.append_assoc]
      rfl

/-- What is being received. -/
def recv (p : Peer) : UInt32 := p.handler.state &&& RECV_MASK

theorem owned_of_log {cfg : Config} {p : Peer} {e : PeerEvent} (new : List PackedMessage)
    (log : appended (p.step cfg e).handler.log = appended p.handler.log ++ new)
    (own : ∀ m, e ≠ .send m) : p.owned cfg e = new := by
  have result : p.owned cfg e =
      (appended (p.step cfg e).handler.log).drop (appended p.handler.log).length := by
    cases e with
    | send m => exact absurd rfl (own m)
    | ioCb => rfl
    | disconnect => rfl
    | pinger => rfl
    | activePinger => rfl
    | clearInactive => rfl
  rw [result, log, List.drop_left]

/-- What a step adds to the handshake, and to whom it belongs. -/
inductive Says (cfg : Config) (p : Peer) (e : PeerEvent) : Prop where
  | nothing (none_ : handshakes (p.owned cfg e) = [])
      (same : replying (p.step cfg e).recv = replying p.recv)
  | reply (env : VersionEnv) (lastBlock last : Int) (revents : Events) (inbox : List RecvResult)
      (outbox : List WriteResult) (read : e = .ioCb env lastBlock revents inbox outbox)
      (both : handshakes (p.owned cfg e) =
        [versionMessage cfg env last p.handler.remoteAddr cfg.external, verackMessage cfg])
      (before : replying p.recv = true) (after : replying (p.step cfg e).recv = false)

theorem speaks_of_quiet {cfg : Config} {p : Peer} {e : PeerEvent} (own : ∀ m, e ≠ .send m)
    (log : appended (p.step cfg e).handler.log = appended p.handler.log)
    (same : (p.step cfg e).recv = p.recv) : Says cfg p e :=
  .nothing (by rw [owned_of_log [] (by rw [log, List.append_nil]) own]; rfl)
    (by rw [same])

/-- Only a callback on the socket moves the receiving side. -/
theorem step_recv (cfg : Config) (p : Peer) {e : PeerEvent}
    (other : ∀ env lastBlock revents inbox outbox, e ≠ .ioCb env lastBlock revents inbox outbox) :
    (p.step cfg e).recv = p.recv := by
  unfold step
  split
  · rfl
  · cases e with
    | ioCb env lastBlock revents inbox outbox => exact absurd rfl (other _ _ _ _ _)
    | send m =>
        simp only
        split
        · exact (Handler.appendForWriteShared_sameReads ..).recv
        · rfl
    | disconnect =>
        simp only
        split
        · rfl
        · rfl
    | pinger due nonce =>
        simp only
        split
        · exact (Handler.pingerCb_sameReads ..).recv
        · rfl
    | activePinger now =>
        simp only
        split
        · exact (Handler.activePingerCb_sameReads ..).recv
        · rfl
    | clearInactive =>
        simp only
        split
        · rfl
        · rfl

/-- What the other events append, beside the messages of a command. -/
theorem owned_silent (cfg : Config) (p : Peer) {e : PeerEvent}
    (other : ∀ env lastBlock revents inbox outbox, e ≠ .ioCb env lastBlock revents inbox outbox) :
    handshakes (p.owned cfg e) = [] := by
  have quiet : ∀ e : PeerEvent, (∀ m, e ≠ .send m) →
      appended (p.step cfg e).handler.log = appended p.handler.log →
      handshakes (p.owned cfg e) = [] := by
    intro e own log
    rw [owned_of_log [] (by rw [log, List.append_nil]) own]
    rfl
  have timer : ∀ (e : PeerEvent) (word : List Char) (payload : List UInt8), (∀ m, e ≠ .send m) →
      commandField (ascii word) ≠ commandField (ascii ['v', 'e', 'r', 's', 'i', 'o', 'n']) →
      commandField (ascii word) ≠ commandField (ascii ['v', 'e', 'r', 'a', 'c', 'k']) →
      appended (p.step cfg e).handler.log =
        appended (p.handler.appendForWrite (getMessage cfg (ascii word) payload)).log →
      handshakes (p.owned cfg e) = [] := by
    intro e word payload own noVersion noVerack log
    rw [owned_of_log [getMessage cfg (ascii word) payload] ?_ own]
    · exact Handler.handshakes_getMessage cfg payload noVersion noVerack
    · rw [log, Handler.appendForWrite, (Handler.appendedForWrite_appended ..).log, appended_append]
      rfl
  cases e with
  | ioCb env lastBlock revents inbox outbox => exact absurd rfl (other _ _ _ _ _)
  | send m => rfl
  | disconnect =>
      apply quiet _ (by intro m no; cases no)
      unfold step
      split
      · rfl
      · simp only
        split
        · simp [Handler.disconnect, Handler.suicide, Handler.gLogBitcoin, Handler.gLog, appended]
        · rfl
  | pinger due nonce =>
      by_cases fires : p.deleted = false ∧ p.handler.timer = true ∧ due = true
      · apply timer _ ['p', 'i', 'n', 'g'] (le 8 nonce) (by intro m no; cases no) (by decide)
          (by decide)
        simp [step, fires, Handler.pingerCb]
      · apply quiet _ (by intro m no; cases no)
        unfold step Handler.pingerCb
        split
        · rfl
        · simp only
          split
          · split
            · rename_i there running due
              exact absurd ⟨by simpa using there, running, due⟩ fires
            · rfl
          · rfl
  | activePinger now =>
      by_cases fires : p.deleted = false ∧ p.handler.activePingTimer = true
      · apply timer _ ['a', 'd', 'd', 'r'] (Handler.addrPayload cfg now) (by intro m no; cases no)
          (by decide) (by decide)
        simp [step, fires, Handler.activePingerCb]
      · apply quiet _ (by intro m no; cases no)
        unfold step
        split
        · rfl
        · simp only
          split
          · rename_i there running
            exact absurd ⟨by simpa using there, running⟩ fires
          · rfl
  | clearInactive =>
      apply quiet _ (by intro m no; cases no)
      unfold step
      split
      · rfl
      · simp only
        split
        · rfl
        · rfl

theorem step_speaks (cfg : Config) {p : Peer} (sound : Sound p.handler) (e : PeerEvent) :
    Says cfg p e ∧ (isAccepting p.recv = true → isAccepting (p.step cfg e).recv = true) := by
  by_cases read : ∃ env lastBlock revents inbox outbox,
      e = .ioCb env lastBlock revents inbox outbox
  · obtain ⟨env, lastBlock, revents, inbox, outbox, rfl⟩ := read
    by_cases deleted : p.deleted = true
    · have same : p.step cfg (.ioCb env lastBlock revents inbox outbox) = p := by
        simp [step, deleted]
      refine ⟨speaks_of_quiet (by intro m no; cases no) (by rw [same]) (by rw [same]), ?_⟩
      rw [same]
      exact fun here => here
    · have result : p.step cfg (.ioCb env lastBlock revents inbox outbox) = { p with
          handler := (p.handler.ioCb cfg env lastBlock revents inbox outbox).1 } := by
        simp [step, deleted]
      obtain ⟨spoke, accepting⟩ :=
        Handler.ioCb_spoke cfg env sound lastBlock revents inbox outbox
      refine ⟨?_, by rw [result]; exact accepting⟩
      rcases spoke with ⟨new, log, none_, same⟩ | ⟨new, last, log, both, before, after⟩
      · refine .nothing ?_ (by rw [result]; exact same)
        rw [owned_of_log new (by rw [result]; exact log) (by intro m no; cases no)]
        exact none_
      · refine .reply env lastBlock last revents inbox outbox rfl ?_ before
          (by rw [result]; exact after)
        rw [owned_of_log new (by rw [result]; exact log) (by intro m no; cases no)]
        exact both
  · have other : ∀ env lastBlock revents inbox outbox,
        e ≠ .ioCb env lastBlock revents inbox outbox :=
      fun env lastBlock revents inbox outbox same =>
        read ⟨env, lastBlock, revents, inbox, outbox, same⟩
    have recv := step_recv cfg p other
    exact ⟨.nothing (owned_silent cfg p other) (by rw [recv]), by
      rw [recv]; exact fun here => here⟩

/-- A handler that does not await the version of its peer never will. -/
theorem run_not_replying (cfg : Config) {p : Peer} (sound : Sound p.handler)
    (none_ : replying p.recv = false) (events : List PeerEvent) :
    replying (run (step cfg) p events).recv = false := by
  refine (run_keeps (P := fun q : Peer => Sound q.handler ∧ replying q.recv = false)
    ?_ ⟨sound, none_⟩ events).2
  rintro q e ⟨good, silent⟩
  refine ⟨step_sound cfg good e, ?_⟩
  rcases (step_speaks cfg good e).1 with ⟨-, still⟩ | ⟨_, _, _, _, _, _, _, _, before, _⟩
  · rw [still, silent]
  · rw [silent] at before
    cases before

/-- As long as the version of the peer is awaited, or if it never was, a handler says nothing
of the handshake. -/
theorem run_silent (cfg : Config) {p : Peer} (sound : Sound p.handler) (events : List PeerEvent)
    (same : replying (run (step cfg) p events).recv = replying p.recv) :
    handshakes (ownMessages cfg p events) = [] := by
  induction events generalizing p with
  | nil => rfl
  | cons e rest ih =>
      have sounder := step_sound cfg sound e
      rw [ownMessages, handshakes_append]
      rcases (step_speaks cfg sound e).1 with ⟨none_, still⟩ | ⟨_, _, _, _, _, _, _, _, before, after⟩
      · rw [none_, ih sounder (by rw [still]; exact same)]
        rfl
      · have later := run_not_replying cfg sounder after rest
        rw [run_cons, later, before] at same
        cases same

theorem run_accepting (cfg : Config) {p : Peer} (sound : Sound p.handler)
    (accepting : isAccepting p.recv = true) (events : List PeerEvent) :
    isAccepting (run (step cfg) p events).recv = true :=
  (run_keeps (P := fun q : Peer => Sound q.handler ∧ isAccepting q.recv = true)
    (fun _ e here => ⟨step_sound cfg here.1 e, (step_speaks cfg here.1 e).2 here.2⟩)
    ⟨sound, accepting⟩ events).2

/-- A new handler, by the way it came to its connection: what it is receiving, and what it
has said. -/
theorem new_speaks (cfg : Config) (env : VersionEnv) (lastBlock : Int) (fd : Nat)
    (remote localAddr : SockaddrStorage) (id : UInt32) :
    (replying (new cfg env lastBlock fd .connected remote localAddr id).recv = false ∧
        handshakes (appended (new cfg env lastBlock fd .connected remote localAddr id).handler.log) =
          [versionMessage cfg env lastBlock cfg.external remote]) ∧
      (replying (new cfg env lastBlock fd .accepted remote localAddr id).recv = true ∧
        handshakes (appended (new cfg env lastBlock fd .accepted remote localAddr id).handler.log) =
          []) := by
  refine ⟨⟨?_, ?_⟩, ?_, ?_⟩
  · show replying (SEND_VERSION_INIT &&& RECV_MASK) = false
    decide
  · show handshakes [versionMessage cfg env lastBlock cfg.external remote] = _
    simp [handshakes, isVersion_versionMessage]
  · show replying (RECV_VERSION_REPLY_HDR &&& RECV_MASK) = true
    decide
  · rfl

end Peer

/-- What `set_address` writes for either address encodes the other. -/
def Interchangeable (env : VersionEnv) (remote external : SockaddrStorage) : Prop :=
  Encodes (setAddress env.recvAddr external) remote ∧
    Encodes (setAddress env.fromAddr remote) external

/-- The answer to the version of a peer names the two ends in their fields exactly if each
passes for the other. -/
theorem shaken_reply_iff (cfg : Config) (env : VersionEnv) (lastBlock : Int)
    (remote : SockaddrStorage) (own : List PackedMessage)
    (said : handshakes own =
      [versionMessage cfg env lastBlock remote cfg.external, verackMessage cfg]) :
    Shaken remote cfg.external own ↔
      AddressesFit cfg ∧ Interchangeable env remote cfg.external := by
  constructor
  · rintro ⟨version, verack, both, -, -, recv, sent⟩
    rw [said] at both
    injection both with version_
    subst version_
    have fit : AddressesFit cfg := by
      by_contra cut
      obtain ⟨memory, field⟩ := sent
      apply fromField_cut cfg env lastBlock remote cfg.external cut
      rw [field, length_setAddress]
    obtain ⟨recvField, fromField⟩ := versionMessage_fields cfg env lastBlock remote cfg.external fit
    rw [recvField] at recv
    rw [fromField] at sent
    exact ⟨fit, recv, sent⟩
  · rintro ⟨fit, recv, sent⟩
    obtain ⟨recvField, fromField⟩ := versionMessage_fields cfg env lastBlock remote cfg.external fit
    exact ⟨_, _, said, isVersion_versionMessage .., isVerack_verackMessage cfg,
      by rw [recvField]; exact recv, by rw [fromField]; exact sent⟩

/-- In every run, a handler whose receive state becomes that of the messages behind the
handshake has queued the version and the verack it owes exactly if it accepted its
connection, `set_address` writes its two addresses alike, and the length field of the version
covers them. -/
theorem handshake_iff (cfg : Config) (env : VersionEnv) (lastBlock : Int) (fd : Nat)
    (isOpen : 0 < fd) (origin : Peer.Origin) (remote localAddr : SockaddrStorage) (id : UInt32)
    (events : List PeerEvent) (env' : VersionEnv) (lastBlock' : Int) (revents : Events)
    (inbox : List RecvResult) (outbox : List WriteResult) (start p : Peer)
    (made : start = Peer.new cfg env lastBlock fd origin remote localAddr id)
    (reached : p = run (Peer.step cfg) start events)
    (before : isDone p.recv = false)
    (becomes : isDone (p.step cfg (.ioCb env' lastBlock' revents inbox outbox)).recv = true) :
    Shaken remote cfg.external (appended start.handler.log ++
        start.ownMessages cfg (events ++ [.ioCb env' lastBlock' revents inbox outbox])) ↔
      origin = .accepted ∧ AddressesFit cfg ∧ Interchangeable env' remote cfg.external := by
  have sound : Sound start.handler := by
    rw [made]
    exact Peer.new_sound cfg env lastBlock isOpen origin remote localAddr id
  have sounder : Sound p.handler := by
    rw [reached]
    exact Peer.run_sound cfg sound events
  obtain ⟨connected, accepted⟩ := Peer.new_speaks cfg env lastBlock fd remote localAddr id
  rw [Peer.ownMessages_append, ← reached]
  cases origin with
  | connected =>
      rw [← made] at connected
      obtain ⟨silent, version⟩ := connected
      have later : replying p.recv = false := by
        rw [reached]
        exact Peer.run_not_replying cfg sound silent events
      have earlier := Peer.run_silent cfg sound events (by rw [← reached, later, silent])
      -- the version of the constructor is all it ever says
      have all : handshakes (p.owned cfg (.ioCb env' lastBlock' revents inbox outbox)) = [] := by
        rcases (Peer.step_speaks cfg sounder (.ioCb env' lastBlock' revents inbox outbox)).1 with
          ⟨none_, -⟩ | ⟨_, _, _, _, _, _, _, _, awaiting, _⟩
        · exact none_
        · rw [later] at awaiting
          cases awaiting
      constructor
      · rintro ⟨v, a, both, -⟩
        rw [handshakes_append, handshakes_append, version, earlier, all] at both
        cases both
      · rintro ⟨no, -⟩
        cases no
  | accepted =>
      rw [← made] at accepted
      obtain ⟨awaiting, nothing⟩ := accepted
      have accepting : isAccepting p.recv = true := by
        rw [reached]
        exact Peer.run_accepting cfg sound (by rw [isAccepting, awaiting]; rfl) events
      have still : replying p.recv = true := by
        rw [isAccepting, before, Bool.or_false] at accepting
        exact accepting
      have earlier := Peer.run_silent cfg sound events (by rw [← reached, still, awaiting])
      have ended : replying
          (p.step cfg (.ioCb env' lastBlock' revents inbox outbox)).recv = false := by
        rcases of_decide_eq_true becomes with recv | recv
        · rw [recv]
          decide
        · rw [recv]
          decide
      have address : p.handler.remoteAddr = remote := by
        rw [reached, (run_ends cfg start events).remoteAddr, made]
        exact (Handler.new_ends ..).2.1
      rcases (Peer.step_speaks cfg sounder (.ioCb env' lastBlock' revents inbox outbox)).1 with
        ⟨-, same⟩ | ⟨_, _, last, _, _, _, read, both, -, -⟩
      · rw [ended, still] at same
        cases same
      · cases read
        rw [address] at both
        rw [shaken_reply_iff cfg env' last remote (_ ++ (_ ++ _))
          (by rw [handshakes_append, handshakes_append, nothing, earlier, both]; rfl)]
        simp

/-- `10.0.0.2:8333`. -/
def otherAddr : SockaddrStorage where
  bytes := [2, 0, 0x20, 0x8d, 10, 0, 0, 2] ++ List.replicate 120 0
  size := by rw [List.length_append, List.length_replicate]; rfl

/-- The version of a node at that address. -/
def someVersion : Chunk where
  bytes := (versionMessage someConfig someEnv 0 otherAddr someAddr).wire
  nonempty := by decide +kernel
  fits := by decide +kernel

/-- A connection we made to a node, which sends its version when ours is out. -/
def someCall : List PeerEvent :=
  [.ioCb someEnv 0 Events.WRITE [] [.accept 200], .ioCb someEnv 0 Events.READ [.data someVersion] []]

/-- A node that connects to us sends its version. -/
def someAnswer : List PeerEvent := [.ioCb someEnv 0 Events.READ [.data someVersion] []]

/-- A node that connects to us from our own address. -/
theorem handshake_iff_same_address :
    Shaken someAddr someAddr
      (appended (Peer.new someConfig someEnv 0 5 .accepted someAddr someAddr 3).handler.log ++
        (Peer.new someConfig someEnv 0 5 .accepted someAddr someAddr 3).ownMessages someConfig
          ([] ++ someAnswer)) := by
  have inet : someAddr.family = AF_INET := by decide
  refine (handshake_iff someConfig someEnv 0 5 (by decide) .accepted someAddr someAddr 3 []
    someEnv 0 Events.READ [.data someVersion] [] _ _ rfl rfl (by decide +kernel)
    (by decide +kernel)).2 ⟨rfl, by unfold AddressesFit; decide +kernel, ?_⟩
  exact ⟨(encodes_inet_iff _ inet inet).2 ⟨rfl, rfl⟩, (encodes_inet_iff _ inet inet).2 ⟨rfl, rfl⟩⟩

/-- The side that called has said its version and nothing else; the side that was called has
the two addresses in each other's fields. -/
theorem handshakes_differ :
    ((run (Peer.step someConfig)
        (Peer.new someConfig someEnv 0 5 .connected otherAddr someAddr 3) someCall).recv =
          RECV_HEADER ∧
      ¬ Shaken otherAddr someConfig.external
        (appended (Peer.new someConfig someEnv 0 5 .connected otherAddr someAddr 3).handler.log ++
          (Peer.new someConfig someEnv 0 5 .connected otherAddr someAddr 3).ownMessages someConfig
            someCall)) ∧
    ((run (Peer.step someConfig)
        (Peer.new someConfig someEnv 0 5 .accepted otherAddr someAddr 3) someAnswer).recv =
          RECV_HEADER ∧
      ¬ Shaken otherAddr someConfig.external
        (appended (Peer.new someConfig someEnv 0 5 .accepted otherAddr someAddr 3).handler.log ++
          (Peer.new someConfig someEnv 0 5 .accepted otherAddr someAddr 3).ownMessages someConfig
            someAnswer)) := by
  refine ⟨⟨by decide +kernel, ?_⟩, by decide +kernel, ?_⟩
  · rintro ⟨version, verack, both, -⟩
    have one : (handshakes
        (appended (Peer.new someConfig someEnv 0 5 .connected otherAddr someAddr 3).handler.log ++
          (Peer.new someConfig someEnv 0 5 .connected otherAddr someAddr 3).ownMessages someConfig
            someCall)).length = 1 := by decide +kernel
    rw [both] at one
    cases one
  · have inet : someConfig.external.family = AF_INET := by decide
    rw [shaken_reply_iff someConfig someEnv 0 otherAddr _ (by decide +kernel)]
    rintro ⟨-, recv, -⟩
    have same := ((encodes_inet_iff _ inet (by decide)).1 recv).1
    exact absurd same (by decide)

end Coinscope.Connector

/-
# Tools.Verbatim2pg -- importing verbatim files into a database

`verbatim2pg.pl` forks a child for every file.  A child reads its file three times: to count
the rows, to collect the texts, and to write the rows out with ids of its own choice.  For
these it moves the sequences of the database on by what it has counted.  Semaphores of the
system keep the children out of each other's way.

A child is a list of what `child_main` has left to do, and one step of the import is one step
of one child, so a run is any interleaving the semaphores allow.

* `recordsOf` -- what `do_pass` finds in a file.
* `pass0Handlers`, `pass1Handlers`, `pass2Handlers` -- the three tables.
* `Child.handleMessage` -- one record, in one of the passes.
* `childMain`, `Import.step` -- the children, the semaphores and the sequences.
-/
import Coinscope.Shared.Bitcoin
import Mathlib.Logic.Function.Basic

namespace Coinscope.Tools

open Coinscope.Shared
open Coinscope.Theory.Bytes

set_option autoImplicit false

/-! ## Files -/

/-- A record, without the length in front of it. -/
abbrev Record := List UInt8

/-- The loop of `do_pass`.  It ends where `read` returns zero: behind the last complete
record, or where it is asked for no bytes. -/
def recordsAux : Nat → List UInt8 → List Record
  | 0, _ => []
  | fuel + 1, file =>
      let size := ofBE (file.take 4)
      let body := file.drop 4
      if file.length < 4 ∨ size = 0 ∨ body.length < size then []
      else body.take size :: recordsAux fuel (body.drop size)

def recordsOf (file : List UInt8) : List Record := recordsAux file.length file

namespace Record

/-- The second value of `unpack("NCQ>a*", ...)`, as a key of the tables.  A letter of the
template gives no value where too few bytes are left.  In less than four bytes there is no `N`
and no `Q>`, so `C` gives the first value, and the second one is the text behind it. -/
def type (r : Record) : Option UInt8 :=
  if 4 ≤ r.length then r[4]?
  else
    match r.drop 1 with
    | [0x32] => some 2
    | [0x34] => some 4
    | [0x38] => some 8
    | [0x31, 0x36] => some 16
    | [0x33, 0x32] => some 32
    | [0x36, 0x34] => some 64
    | _ => none

/-- The command of a BITCOIN_MSG record, the fourth value of `unpack("NCVZ[12]VVa*", $rest)`.
In front of `$rest` are 13 bytes, and 9 more in front of the `Z[12]`; where these are not all
there, the fourth value is empty or missing. -/
def command (r : Record) : List UInt8 := cString (slice 22 12 r)

/-- `$str =~ /[[:^ascii:]]/`. -/
def invalid (r : Record) : Bool := r.command.any fun b => decide (128 ≤ b)

end Record

/-! ## Passes -/

inductive Pass where
  | zero
  | one
  | two
  deriving DecidableEq

/-- The sequences `child_main` draws ids from: `messages_id_seq`,
`bitcoin_cxn_messages_id_seq` and `bitcoin_messages_id_seq`. -/
inductive Sequence where
  | messages
  | bitcoinCxnMessages
  | bitcoinMessages
  deriving DecidableEq

/-- The subroutines in the three tables. -/
inductive Handler where
  | voidHandler
  | pass0AsText
  | pass0BitcoinHandler
  | pass0BitcoinMsgHandler
  | pass1AsText
  | pass1BitcoinHandler
  | pass1BitcoinMsgHandler
  | pass2AsText
  | pass2BitcoinHandler
  | pass2BitcoinMsgHandler
  deriving DecidableEq

def pass0Handlers (type : UInt8) : Option Handler :=
  if type = 2 then some .pass0AsText
  else if type = 4 then some .voidHandler
  else if type = 8 then some .voidHandler
  else if type = 16 then some .pass0BitcoinHandler
  else if type = 32 then some .pass0BitcoinMsgHandler
  else if type = 64 then some .pass0AsText
  else none

def pass1Handlers (type : UInt8) : Option Handler :=
  if type = 2 then some .voidHandler
  else if type = 4 then some .voidHandler
  else if type = 8 then some .voidHandler
  else if type = 16 then some .pass1BitcoinHandler
  else if type = 32 then some .pass1BitcoinMsgHandler
  else if type = 64 then some .pass1AsText
  else none

def pass2Handlers (type : UInt8) : Option Handler :=
  if type = 2 then some .voidHandler
  else if type = 4 then some .voidHandler
  else if type = 8 then some .voidHandler
  else if type = 16 then some .pass2BitcoinHandler
  else if type = 32 then some .pass2BitcoinMsgHandler
  else if type = 64 then some .pass2AsText
  else none

def handlersOf : Pass → UInt8 → Option Handler
  | .zero => pass0Handlers
  | .one => pass1Handlers
  | .two => pass2Handlers

/-! ## Children -/

/-- What `child_main` does that others can see, or that depends on them. -/
inductive Op where
  | lock (n : Nat)
  | unlock (n : Nat)
  | doPass (pass : Pass)
  | nextval (q : Sequence)
  | setval (q : Sequence)
  deriving DecidableEq

/-- `jump_sequence`: two statements, each of them atomic. -/
def jumpSequence (q : Sequence) : List Op := [.nextval q, .setval q]

/-- `child_main`, up to the tables it creates. -/
def childMain : List Op :=
  List.flatten [
    [.lock 4],
    [.lock 0, .doPass .zero, .unlock 0],
    [.lock 1, .doPass .one, .unlock 1],
    [.lock 2], jumpSequence .messages, [.unlock 2],
    [.lock 3], jumpSequence .bitcoinCxnMessages, [.unlock 3],
    [.lock 3], jumpSequence .bitcoinMessages, [.unlock 3],
    [.doPass .two]]

/-- The semaphore an `eval` block is inside of. -/
def holding : List Op → Option (Nat)
  | [] => none
  | .lock _ :: _ => none
  | .unlock n :: _ => some n
  | .doPass _ :: rest => holding rest
  | .nextval _ :: rest => holding rest
  | .setval _ :: rest => holding rest

/-- A child: the records of its file, those the current pass has still to read, what is left
to do, and the variables.  `rows` are the counts `rows`, `cid_rows` and `bid_rows`, where an
undefined one is zero; `next` are `next_mid`, `next_cid` and `next_bid`.  Beside them, the
ranges `jump_sequence` reserved, from the first id to the one behind the last, and the ids
that were written. -/
structure Child where
  records : List Record
  left : List Record
  todo : List Op
  dead : Bool
  reaped : Bool
  consecutiveInvalids : Nat
  rows : Sequence → Nat
  next : Sequence → Nat
  range : Sequence → Option (Nat × Nat)
  written : Sequence → List Nat

namespace Child

def new (file : List UInt8) : Child where
  records := recordsOf file
  left := recordsOf file
  todo := childMain
  dead := false
  reaped := false
  consecutiveInvalids := 0
  rows := fun _ => 0
  next := fun _ => 0
  range := fun _ => none
  written := fun _ => []

/-- `$g_pass_data[n]{...}++`. -/
def count (c : Child) (q : Sequence) : Child :=
  { c with rows := Function.update c.rows q (c.rows q + 1) }

/-- An id is taken, and written to the file of its table. -/
def take (c : Child) (q : Sequence) : Child :=
  { c with
    next := Function.update c.next q (c.next q + 1)
    written := Function.update c.written q (c.written q ++ [c.next q]) }

/-- `pass2_prolog`. -/
def pass2Prolog (c : Child) : Child := c.take .messages

/-- `get_command_id`. -/
def getCommandId (c : Child) (r : Record) : Child :=
  { c with consecutiveInvalids := c.consecutiveInvalids + if r.invalid then 1 else 0 }

/-- A subroutine of the tables, on a record. -/
def call (c : Child) (r : Record) : Handler → Child
  | .voidHandler => c
  -- an experiment may be entered, which has no id
  | .pass0AsText => c
  | .pass0BitcoinHandler => c.count .messages
  | .pass0BitcoinMsgHandler => (c.getCommandId r).count .messages
  | .pass1AsText => c
  | .pass1BitcoinHandler => c.count .bitcoinCxnMessages
  | .pass1BitcoinMsgHandler => (c.getCommandId r).count .bitcoinMessages
  | .pass2AsText => c.pass2Prolog
  | .pass2BitcoinHandler => c.pass2Prolog.take .bitcoinCxnMessages
  | .pass2BitcoinMsgHandler => (c.pass2Prolog.getCommandId r).take .bitcoinMessages

/-- `handle_message`; without a value it dies. -/
def handleMessage (pass : Pass) (c : Child) (r : Record) : Option Child :=
  match r.type.bind (handlersOf pass) with
  | none => some c
  | some h =>
      let called := c.call r h
      let invalids :=
        if called.consecutiveInvalids = c.consecutiveInvalids then 0
        else called.consecutiveInvalids
      if 3 < invalids then none else some { called with consecutiveInvalids := invalids }

end Child

/-! ## The import -/

/-- The children, the semaphores 0 to 4, and the sequences. -/
structure Import where
  children : List Child
  sems : Nat → Nat
  seqs : Sequence → Nat

/-- One step of a child, a child that dies or leaves, or a child the parent has waited for. -/
inductive Event where
  | run (k : Nat)
  | quit (k : Nat)
  | reap (k : Nat)
  deriving DecidableEq

namespace Import

/-- The children of the files; `seqs` are the values the sequences give next. -/
def start (files : List (List UInt8)) (cpus : Nat) (seqs : Sequence → Nat) : Import where
  children := files.map Child.new
  sems := fun n => if n = 4 then cpus else 1
  seqs := seqs

/-- The import with another state of a child. -/
def withChild (s : Import) (k : Nat) (c : Child) : Import :=
  { s with children := s.children.set k c }

def up (s : Import) (n : Nat) : Import := { s with sems := Function.update s.sems n (s.sems n + 1) }

/-- `die`, which an `eval` block answers with `unlock`, or `exit`. -/
def quit (s : Import) (k : Nat) (c : Child) : Import :=
  let s := s.withChild k { c with todo := [], dead := true }
  match holding c.todo with
  | none => s
  | some n => s.up n

/-- The next step of a child.  A semaphore that is taken has it wait. -/
def advance (s : Import) (k : Nat) (c : Child) : Import :=
  match c.todo with
  | [] => s
  | .lock n :: rest =>
      if s.sems n = 0 then s
      else { s.withChild k { c with todo := rest } with
        sems := Function.update s.sems n (s.sems n - 1) }
  | .unlock n :: rest => (s.withChild k { c with todo := rest }).up n
  | .doPass pass :: rest =>
      match c.left with
      | [] => s.withChild k { c with todo := rest, left := c.records }
      | r :: left =>
          match c.handleMessage pass r with
          | none => s.quit k c
          | some c => s.withChild k { c with left := left }
  | .nextval q :: rest =>
      { s.withChild k { c with
          todo := rest
          next := Function.update c.next q (s.seqs q)
          range := Function.update c.range q (some (s.seqs q, s.seqs q + 1)) } with
        seqs := Function.update s.seqs q (s.seqs q + 1) }
  | .setval q :: rest =>
      if c.rows q = 0 then s.withChild k { c with todo := rest }
      else { s.withChild k { c with
          todo := rest
          range := Function.update c.range q (some (c.next q, c.next q + c.rows q + 1)) } with
        seqs := Function.update s.seqs q (c.next q + c.rows q + 1) }

def step (s : Import) : Event → Import
  | .run k =>
      match s.children[k]? with
      | none => s
      | some c => s.advance k c
  | .quit k =>
      match s.children[k]? with
      | none => s
      | some c => s.quit k c
  | .reap k =>
      match s.children[k]? with
      | none => s
      | some c =>
          if c.todo = [] ∧ c.reaped = false then (s.withChild k { c with reaped := true }).up 4 else s

/-- The ids that were written, by all the children. -/
def ids (s : Import) (q : Sequence) : List Nat := s.children.flatMap fun c => c.written q

end Import

end Coinscope.Tools

import StoreGateway.Command.Tool
import StoreGateway.Error
import StoreGateway.Json.Document

/-!
# Replies of the tools

What the query tool prints is its reply, if it is one JSON text and not too long; of the other
tools it only matters that they start. No tool starts whose arguments cannot be handed over.

A program writes its output and its complaints in pieces, and mixes them as it likes. The output is
read piece by piece, and no further than one byte past the limit.

* `Program`: what a program does when it is started;
* `Execution`: how it does that, piece by piece;
* `readOutput`: what is read of the output;
* `Arguments.passable`: arguments that can be handed to a program;
* `Execution.reply`, `jsonReply`: the reply of the query tool;
* `reply`: the reply of any tool.
-/

namespace StoreGateway.Command

/-- A program that can be started: what it prints, what it complains of, and how it ends. -/
structure Program where
  output : ByteArray
  complaints : ByteArray
  exitCode : Nat

/-- A piece of what a program writes. -/
inductive Chunk where
  | output (bytes : ByteArray)
  | complaint (bytes : ByteArray)

/-- A program that was started: what it writes, in order, and how it ends. -/
structure Execution where
  chunks : List Chunk
  exitCode : Nat

/-- A program that writes all of its output first, and then what it complains of. -/
def Program.execution (p : Program) : Execution :=
  ⟨[.output p.output, .complaint p.complaints], p.exitCode⟩

/-! ## Arguments -/

/-- The number of bytes that the text of one argument stays below. -/
def argumentLimit : Nat := Nat.pow 2 17

/-- An argument is handed over with a null character behind it, so it cannot hold one itself. -/
def passable (argument : String) : Bool :=
  !argument.toList.contains '\x00' && argument.utf8ByteSize < argumentLimit

def Arguments.passable (as : Arguments) : Bool :=
  as.argv.all Command.passable

/-- A failure as the system words it, with its number. -/
def systemMessage (text : String) (number : Nat) : String :=
  text ++ " (os error " ++ toString number ++ ")"

/-- Why arguments cannot be handed over. -/
def notPassable (as : Arguments) : Error :=
  if as.argv.any fun a => a.toList.contains '\x00' then .io "nul byte found in provided data"
  else .io (systemMessage "Argument list too long" 7)

/-! ## Output -/

/-- The bytes that are read at most: one more than may be, counted in sixty-four bits. -/
def readBound (limit : Nat) : Nat :=
  (limit + 1) % Nat.pow 2 64

/-- Reads on until there is no more output, or the bound is reached. Complaints go elsewhere. -/
def readOutput (bound : Nat) (read : ByteArray) : List Chunk → ByteArray
  | [] => read
  | chunk :: chunks =>
    if bound ≤ read.size then read
    else match chunk with
      | .output bytes => readOutput bound (read ++ bytes.extract 0 (bound - read.size)) chunks
      | .complaint _ => readOutput bound read chunks

/--
The JSON value that a program prints. The length alone decides whether it is looked at, and the
rest of what the program does is of no interest.
-/
def Execution.reply (limit : Nat) (e : Execution) : Except Error Json :=
  let read := readOutput (readBound limit) .empty e.chunks
  if limit < read.size then .error (.outputLimit limit)
  else match Json.readBytes read with
    | some v => .ok v
    | none => .error (.parse "the output is not one JSON text")

def jsonReply (limit : Nat) (p : Program) : Except Error Json :=
  p.execution.reply limit

/-- The reply to a call, given the program of its tool or the reason that there is none. -/
def reply (limit : Nat) (program : Except Error Program) (call : Call) : Except Error Json :=
  if call.arguments.passable then
    program.bind fun p =>
      match call.tool with
      | .query => jsonReply limit p
      | _ => .ok .null
  else .error (notPassable call.arguments)

end StoreGateway.Command

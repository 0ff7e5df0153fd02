import StoreGateway.Text.Split

/-!
# Usage of the command line

The words of a command line are a command with its options and operands, and in front of the
command or among its own words at most one log level each. The words are read from left to right,
and a call for help or for the version ends the reading where it stands.

* `Word`, `Word.of`: what a word can be;
* `Page`, `Stop`: what is asked for instead of a command, and why no command is read;
* `Signature.read`: the options, flags and operands of one command;
* `Command`, `Invocation`: what a command line asks for;
* `Invocation.read`: reads a command line.
-/

namespace StoreGateway.CommandLine

open StoreGateway.Text

inductive Word where
  /-- Two hyphens: everything after them is an operand. -/
  | separator
  /-- An option by its long name, which may bring its value. -/
  | long (name : String) (value : Option String)
  /-- A hyphen and letters, of which the first is kept. Only help and the version have a letter. -/
  | short (letter : Char)
  | plain (text : String)
deriving DecidableEq, Repr

/-- A single hyphen is plain text. -/
def Word.of (w : String) : Word :=
  match w.toList with
  | ['-', '-'] => separator
  | '-' :: '-' :: cs =>
    match splitOnce '=' cs with
    | some (name, value) => long (String.ofList name) (some (String.ofList value))
    | none => long (String.ofList cs) none
  | ['-'] => plain w
  | '-' :: c :: _ => short c
  | _ => plain w

namespace Word

def asksHelp (w : Word) : Bool :=
  w = long "help" none || w = short 'h'

def asksVersion (w : Word) : Bool :=
  w = long "version" none || w = short 'V'

end Word

/-- What is printed when help or the version is asked for. -/
inductive Page where
  | overview
  | command (name : String)
  | version
deriving DecidableEq, Repr

/-- A page in one line. -/
def Page.summary : Page → String
  | overview => "Usage: pcs [OPTIONS] <COMMAND>"
  | command name => "Usage: pcs " ++ name
  | version => "pcs-driver 0.1.0"

/-- Why no command is read. -/
inductive Stop where
  | misuse
  | page (p : Page)
deriving DecidableEq, Repr

/-- The words of a command, sorted by what they are. -/
structure Given where
  options : List (String × String)
  flags : List String
  operands : List String
deriving DecidableEq, Repr

/-- What a command takes: options with a value, flags, and up to so many operands. -/
structure Signature where
  options : List String
  flags : List String
  operands : Nat
deriving DecidableEq, Repr

namespace Signature

/-- An option may be given once. -/
def addOption (s : Signature) (g : Given) (name value : String) : Except Stop Given :=
  if s.options.contains name && !(g.options.any fun o => o.1 = name) then
    .ok { g with options := g.options ++ [(name, value)] }
  else .error .misuse

/-- A flag may be given once. -/
def addFlag (s : Signature) (g : Given) (name : String) : Except Stop Given :=
  if s.flags.contains name && !g.flags.contains name then
    .ok { g with flags := g.flags ++ [name] }
  else .error .misuse

def addOperand (s : Signature) (g : Given) (text : String) : Except Stop Given :=
  if g.operands.length < s.operands then .ok { g with operands := g.operands ++ [text] }
  else .error .misuse

/--
Sorts the words of a command behind those that are given already. Help is given before it is known
whether all that the command needs is there, but behind two hyphens there is none to be asked for.
-/
def read (s : Signature) (help : Page) (g : Given) : List String → Except Stop Given
  | [] => .ok g
  | w :: ws =>
    if (Word.of w).asksHelp then .error (.page help)
    else
      match Word.of w with
      | .separator => ws.foldlM s.addOperand g
      | .short _ => .error .misuse
      | .plain text => (s.addOperand g text).bind fun g => read s help g ws
      | .long name (some value) => (s.addOption g name value).bind fun g => read s help g ws
      | .long name none =>
        if s.flags.contains name then (s.addFlag g name).bind fun g => read s help g ws
        else
          match ws with
          | v :: rest =>
            match Word.of v with
            | .plain value => (s.addOption g name value).bind fun g => read s help g rest
            | _ => .error .misuse
          | [] => .error .misuse

end Signature

def Given.option? (g : Given) (name : String) : Option String :=
  (g.options.find? fun o => o.1 = name).map (·.2)

inductive Command where
  | query (table : Option String) (spec : String) (unweight : Bool)
  | tables
  | columns (table : String)
  | stats (table : String)
  | ingest (dataset subset input : String)
deriving DecidableEq, Repr

/-- The name of the input that stands for standard input. -/
def standardInput : String := "-"

/-- The option that every command takes. -/
def logLevelOption : String := "log-level"

/-- The command that asks for a page. -/
def helpCommand : String := "help"

namespace Command

/-- What the command of a name takes. -/
def signature? : String → Option Signature
  | "query" => some ⟨["table", "spec", logLevelOption], ["unweight"], 0⟩
  | "tables" => some ⟨[logLevelOption], [], 0⟩
  | "columns" => some ⟨[logLevelOption], [], 1⟩
  | "stats" => some ⟨[logLevelOption], [], 1⟩
  | "ingest" => some ⟨["dataset", "subset", logLevelOption], [], 1⟩
  | _ => none

/-- The command of a name, if all that it needs was given. -/
def ofGiven? (name : String) (g : Given) : Option Command :=
  match name, g.operands with
  | "query", [] =>
    some (query (g.option? "table") ((g.option? "spec").getD standardInput)
      (g.flags.contains "unweight"))
  | "tables", [] => some tables
  | "columns", [table] => some (columns table)
  | "stats", [table] => some (stats table)
  | "ingest", operands =>
    match g.option? "dataset", g.option? "subset" with
    | some dataset, some subset =>
      some (ingest dataset subset (operands.head?.getD standardInput))
    | _, _ => none
  | _, _ => none

/-- The name of the input that a command reads. -/
def input? : Command → Option String
  | query _ spec _ => some spec
  | ingest _ _ input => some input
  | _ => none

end Command

structure Invocation where
  logLevel : Option String
  command : Command
deriving DecidableEq, Repr

namespace Invocation

/-- Reads a command and its words; its own log level is preferred to the one in front of it. -/
def readCommand (logLevel : Option String) (name : String) (ws : List String) :
    Except Stop Invocation := do
  let some signature := Command.signature? name | throw .misuse
  let given ← signature.read (.command name) ⟨[], [], []⟩ ws
  let some command := Command.ofGiven? name given | throw .misuse
  return ⟨(given.option? logLevelOption).or logLevel, command⟩

/-- The page that is asked for by name. -/
def readHelp : List String → Stop
  | [] => .page .overview
  | [name] =>
    if (Command.signature? name).isSome || name = helpCommand then .page (.command name) else .misuse
  | _ => .misuse

/-- What stands in front of a command. -/
structure Front where
  logLevel : Option String
  /-- The log level was given a second time, as a word of its own. -/
  repeated : Bool
deriving DecidableEq, Repr

/--
Reads the words of a command line behind those in front of the command. A log level that was
repeated is complained of when the next option is met, or when the command has been read; what its
own words, or the help command, stop at comes first.
-/
def readBehind (front : Front) : List String → Except Stop Invocation
  | [] => .error .misuse
  | w :: ws =>
    match Word.of w with
    | .plain name =>
      if name = helpCommand then .error (readHelp ws)
      else
        (readCommand front.logLevel name ws).bind fun i =>
          if front.repeated then .error .misuse else .ok i
    | word =>
      if front.repeated then .error .misuse
      else if word.asksHelp then .error (.page .overview)
      else if word.asksVersion then .error (.page .version)
      else
        match word, ws with
        | .long option (some value), ws =>
          if option = logLevelOption && front.logLevel.isNone then
            readBehind ⟨some value, false⟩ ws
          else .error .misuse
        | .long option none, v :: rest =>
          match Word.of v with
          | .plain value =>
            if option = logLevelOption then readBehind ⟨some value, front.logLevel.isSome⟩ rest
            else .error .misuse
          | _ => .error .misuse
        | _, _ => .error .misuse

/-- Reads a command line; only a log level may stand in front of the command. -/
def read (words : List String) : Except Stop Invocation :=
  readBehind ⟨none, false⟩ words

end Invocation

end StoreGateway.CommandLine

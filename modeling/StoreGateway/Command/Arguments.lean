import StoreGateway.Text.Blank

/-!
# Arguments of the tools

A tool takes switches, which stand alone, and options, which are followed by one value. An
argument list is structured, so a value is never taken for a flag.

* `Switch`, `Opt`, `Argument`, `Arguments`: the flags and argument lists;
* `Arguments.addSwitch`, `Arguments.addOpt`, `Arguments.extend`: how a list is made;
* `Arguments.argv`: the words handed to a tool;
* `Arguments.ofArgv?`: reads the words back;
* `Arguments.display`: one line of text for people.
-/

namespace StoreGateway.Command

inductive Switch where
  | laq | print | json | time | samples | info | tables
deriving DecidableEq, Repr

namespace Switch

def all : List Switch :=
  [laq, print, json, time, samples, info, tables]

def name : Switch → String
  | laq => "laq"
  | print => "print"
  | json => "json"
  | time => "time"
  | samples => "samples"
  | info => "info"
  | tables => "tables"

/-- The word that sets the switch. -/
def flag (s : Switch) : String :=
  "-" ++ s.name

def ofName? (name : String) : Option Switch :=
  all.find? fun s => s.name = name

end Switch

inductive Opt where
  | group | int | strFilter | intFilter | timeCol | limit | timeBucket | table | op
deriving DecidableEq, Repr

namespace Opt

def all : List Opt :=
  [group, int, strFilter, intFilter, timeCol, limit, timeBucket, table, op]

def name : Opt → String
  | group => "group"
  | int => "int"
  | strFilter => "str-filter"
  | intFilter => "int-filter"
  | timeCol => "time-col"
  | limit => "limit"
  | timeBucket => "time-bucket"
  | table => "table"
  | op => "op"

/-- The word in front of the option's value. -/
def flag (o : Opt) : String :=
  "-" ++ o.name

def ofName? (name : String) : Option Opt :=
  all.find? fun o => o.name = name

end Opt

inductive Argument where
  | switch (s : Switch)
  | opt (o : Opt) (value : String)
deriving DecidableEq, Repr

def Argument.words : Argument → List String
  | switch s => [s.flag]
  | opt o value => [o.flag, value]

abbrev Arguments := List Argument

namespace Arguments

def addSwitch (as : Arguments) (s : Switch) : Arguments :=
  as ++ [.switch s]

def addOpt (as : Arguments) (o : Opt) (value : String) : Arguments :=
  as ++ [.opt o value]

/-- Appends all arguments of another list, in their order. -/
def extend (as bs : Arguments) : Arguments :=
  as ++ bs

/-- The words handed to a tool. -/
def argv (as : Arguments) : List String :=
  as.flatMap Argument.words

def containsSwitch (as : Arguments) (s : Switch) : Bool :=
  as.contains (.switch s)

/-- The value of the first of the options `o`. -/
def valueOf? (as : Arguments) (o : Opt) : Option String :=
  as.findSome? fun
    | .opt p value => if p = o then some value else none
    | .switch _ => none

/-- Reads words from left to right; an option takes the next word as its value, whatever it is. -/
def ofArgv? : List String → Option Arguments
  | [] => some []
  | w :: ws =>
    match Switch.all.find? fun s => s.flag = w with
    | some s => (ofArgv? ws).map (.switch s :: ·)
    | none =>
      match Opt.all.find? (fun o => o.flag = w), ws with
      | some o, value :: rest => (ofArgv? rest).map (.opt o value :: ·)
      | _, _ => none

/-! ## Display -/

/-- A word is quoted when it is empty, or holds a blank or a quotation mark. -/
def needsQuotes (w : List Char) : Bool :=
  w.isEmpty || w.any fun c => Text.isBlank c || c = '"'

def escapeQuote (c : Char) : List Char :=
  if c = '"' then ['\\', '"'] else [c]

def displayWord (w : List Char) : List Char :=
  if needsQuotes w then '"' :: w.flatMap escapeQuote ++ ['"'] else w

/-- Words with one space between them. -/
def displayWords : List (List Char) → List Char
  | [] => []
  | [w] => displayWord w
  | w :: ws => displayWord w ++ ' ' :: displayWords ws

def display (as : Arguments) : String :=
  String.ofList (displayWords (as.argv.map String.toList))

end Arguments

end StoreGateway.Command

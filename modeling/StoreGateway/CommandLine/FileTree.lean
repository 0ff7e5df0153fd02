import StoreGateway.Command.Reply
import StoreGateway.Text.Split

/-!
# Paths in a file tree

A path is followed one segment at a time, and every segment is looked up in the directory that the
segments before it have led to. So a path that goes through something that is not there, or through
a file, leads nowhere, even if it would come back out of it.

* `Place`, `Segment`: where something can stand in a tree, and one step to another place;
* `Node`, `FileTree`: what stands at a place;
* `FileTree.find`: the place that a path leads to;
* `FileTree.directory`, `FileTree.content`, `FileTree.program`: what a path leads to;
* `PathError`: why it does not.
-/

namespace StoreGateway.CommandLine

open StoreGateway.Command StoreGateway.Text

/-- A place is given by the names on the way to it from the root, the last of them first. -/
structure Place where
  names : List String
deriving DecidableEq, Repr

/-- One segment of a path. -/
inductive Segment where
  | here
  | up
  | name (n : String)
deriving DecidableEq, Repr

/-- Two slashes in a row, or a slash at the end, have an empty segment behind them. -/
def Segment.of : List Char → Segment
  | [] | ['.'] => here
  | ['.', '.'] => up
  | cs => name (String.ofList cs)

def segments (path : String) : List Segment :=
  (splitOn '/' path.toList).map Segment.of

def isAbsolute (path : String) : Bool :=
  path.toList.head? = some '/'

namespace Place

def root : Place := ⟨[]⟩

/-- One step from a place. There is no way up from the root. -/
def step (p : Place) : Segment → Place
  | .here => p
  | .up => ⟨p.names.drop 1⟩
  | .name n => ⟨n :: p.names⟩

/-- The place that an absolute path names. -/
def ofPath (path : String) : Place :=
  (segments path).foldl step root

/-- The absolute path of a place. -/
def path (p : Place) : String :=
  "/" ++ "/".intercalate p.names.reverse

/-- Where a path starts. -/
def start (base : Place) (path : String) : Place :=
  if isAbsolute path then root else base

end Place

/-- Why a path does not lead to what is wanted. -/
inductive PathError where
  | missing
  | denied
  | notDirectory
  | isDirectory
  | nameTooLong
deriving DecidableEq, Repr

namespace PathError

/-- What the system says about an error, and its number. -/
def text : PathError → String × Nat
  | missing => ("No such file or directory", 2)
  | denied => ("Permission denied", 13)
  | notDirectory => ("Not a directory", 20)
  | isDirectory => ("Is a directory", 21)
  | nameTooLong => ("File name too long", 36)

def toError (e : PathError) : Error :=
  .io (systemMessage e.text.1 e.text.2)

end PathError

/-- What stands at a place. A program is a file that can be started. -/
inductive Node where
  | directory
  | file (content : ByteArray)
  | program (content : ByteArray) (p : Program)

abbrev FileTree := Place → Option Node

/-- The number of bytes that a name can have. -/
def nameLimit : Nat := 255

/-- The number of bytes that a path stays below. -/
def pathLimit : Nat := 4096

namespace FileTree

/-- One step from a place. It is taken from a directory to something that is there. -/
def step (t : FileTree) (p : Place) (s : Segment) : Except PathError Place :=
  match t p, s with
  | some .directory, .name n =>
    if nameLimit < n.utf8ByteSize then .error .nameTooLong
    else if (t (p.step s)).isNone then .error .missing
    else .ok (p.step s)
  | some .directory, s => .ok (p.step s)
  | _, _ => .error .notDirectory

/-- The place that a path leads to from the directory `base`. The empty path leads nowhere. -/
def find (t : FileTree) (base : Place) (path : String) : Except PathError Place :=
  if path = "" then .error .missing
  else if pathLimit ≤ path.utf8ByteSize then .error .nameTooLong
  else (segments path).foldlM (step t) (base.start path)

/-- The directory that a path leads to. -/
def directory (t : FileTree) (base : Place) (path : String) : Except PathError Place := do
  let p ← find t base path
  match t p with
  | some .directory => .ok p
  | _ => .error .notDirectory

/-- The content of the file that a path leads to. -/
def content (t : FileTree) (base : Place) (path : String) : Except PathError ByteArray := do
  match t (← find t base path) with
  | some (.file content) | some (.program content _) => .ok content
  | some .directory => .error .isDirectory
  | none => .error .missing

/-- The program that a path leads to, and its place. -/
def programAt (t : FileTree) (base : Place) (path : String) :
    Except PathError (Place × Program) := do
  let p ← find t base path
  match t p with
  | some (.program _ program) => .ok (p, program)
  | some _ => .error .denied
  | none => .error .missing

/-- The paths under which a program is looked for: a bare name is looked for in each directory. -/
def candidates (searched : List String) (path : String) : List String :=
  if path.toList.contains '/' then [path]
  else searched.map fun dir => if dir = "" then path else dir ++ "/" ++ path

/--
The first of the programs that some paths lead to. If there is none, the last failure counts, but
a denial counts more than any other.
-/
def firstProgram (t : FileTree) (base : Place) : PathError → List String →
    Except PathError (Place × Program)
  | failure, [] => .error failure
  | failure, path :: paths =>
    match programAt t base path with
    | .ok found => .ok found
    | .error e => firstProgram t base (if failure = .denied then .denied else e) paths

/-- The program of a path or a bare name that is started in the directory `base`. -/
def program (t : FileTree) (searched : List String) (base : Place) (path : String) :
    Except PathError (Place × Program) :=
  firstProgram t base .missing (candidates searched path)

end FileTree

end StoreGateway.CommandLine

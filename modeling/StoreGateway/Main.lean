import StoreGateway.CommandLine.Run

/-!
# The command line program

Reads what the command needs from the surroundings, runs it, and prints what comes of it. No
process is started: the file at a tool's path stands for the tool, and what it holds for what the
tool prints.
-/

namespace StoreGateway.CommandLine

open StoreGateway.Command StoreGateway.Settings

/-- Everything that a stream still has. -/
partial def readAll (stream : IO.FS.Stream) (read : ByteArray) : IO ByteArray := do
  let more ← stream.read 65536
  if more.isEmpty then return read
  readAll stream (read ++ more)

/-- What stands at a place of the file system. -/
def nodeAt? (p : Place) : IO (Option Node) := do
  try
    if ← (← IO.FS.realPath p.path).isDir then return some .directory
    let content ← IO.FS.readBinFile p.path
    return some (.program content ⟨content, .empty, 0⟩)
  catch _ =>
    return none

/-- The places on the way of a path. -/
def passed (base : Place) (path : String) : List Place :=
  (segments path).scanl Place.step (base.start path)

/-- The name of the input that a command line reads. -/
def inputOf? (words : List String) : Option String :=
  (Invocation.read words).toOption.bind fun i => i.command.input?

/-- The places that matter for what a command reads and for the tools that it starts. -/
def placesOfInterest (h : Host) (words : List String) : List Place :=
  let input := (inputOf? words).toList
  match Config.ofEnvironment h.home h.env with
  | .error _ => []
  | .ok c =>
    let dir := (segments c.workDir).foldl Place.step (h.homePlace.start c.workDir)
    passed .root h.home ++ (input ++ [c.workDir]).flatMap (passed h.homePlace) ++
      Tool.all.flatMap fun t =>
        (FileTree.candidates h.searched (c.tools.path t)).flatMap (passed dir)

/-- The surroundings of this process, as far as the command looks at them. -/
def survey (words : List String) : IO Host := do
  let home := toString (← IO.currentDir)
  let mut set : List (String × String) := []
  for name in variableNames do
    if let some value ← IO.getEnv name then
      set := (name, value) :: set
  let env : Environment := fun name => set.lookup name
  let mut stdin := ByteArray.empty
  if inputOf? words = some standardInput then
    stdin ← readAll (← IO.getStdin) stdin
  let h : Host := { home, env, stdin, tree := fun _ => none }
  let mut nodes : List (Place × Node) := []
  for p in placesOfInterest h words do
    if let some node ← nodeAt? p then
      nodes := (p, node) :: nodes
  return { h with tree := fun p => nodes.lookup p }

/-- What is said on the error stream. -/
def complaint : Failure → String
  | .usage => "error: the command line is not understood"
  | .error e => "Error: " ++ (inspectError e).1 ++ (inspectError e).2

end StoreGateway.CommandLine

open StoreGateway.CommandLine in
def main (words : List String) : IO UInt32 := do
  let outcome := run (← survey words) words
  (← IO.getStdout).putStr outcome.stdout
  if let .error failure := outcome.result then
    (← IO.getStderr).putStrLn (complaint failure)
  return outcome.exitCode.toUInt32

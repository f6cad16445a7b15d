import ScarbCrates.CommandLine.Sights

/-!
# The program

The command line as a process: it reads the environment, takes a picture of the files that the
request looks at, and prints what the run leaves.  What Scarb prints about the workspace is read
from the standard input.
-/

namespace ScarbCrates.Process

/-- The variables that settings come from. -/
def settingNames : List String :=
  [CommandLine.homeVariable, Toolchain.scarbVariable, Config.scarbVariable, Config.logLevelVariable]

/-- The environment, as far as it matters. -/
def environment : IO Environment := do
  let found ← settingNames.mapM fun name => do
    let value ← IO.getEnv name
    return value.map fun v => (name, v)
  return found.filterMap id

/-- The home directories in the text of a file with a line for each user: the name, a password, the
number of the user, two more fields and the home directory.  `user` is the number of the user that
runs this process. -/
def homesIn (passwords : String) (user : Option String) : Homes :=
  let entries := (passwords.splitOn "\n").filterMap fun line =>
    match line.splitOn ":" with
    | name :: _ :: number :: _ :: _ :: home :: _ => some (name, number, home)
    | _ => none
  let bytes (s : String) : List UInt8 := Text.encode (Text.ofString s)
  { own := (entries.find? fun e => some e.2.1 == user).map fun e => bytes e.2.2
    ofUser := fun name => (entries.find? fun e => bytes e.1 == name).map fun e => bytes e.2.2 }

/-- The number of the user that runs this process, from the text in which the system describes
it. -/
def userIn (status : String) : Option String :=
  (status.splitOn "\n").findSome? fun line =>
    match line.splitOn "\t" with
    | "Uid:" :: number :: _ => some number
    | _ => none

/-- The home directories that the system knows of. -/
def users : IO Homes := do
  let read (name : String) : IO String := do
    match ← (IO.FS.readFile name).toBaseIO with
    | .ok text => return text
    | .error _ => return ""
  return homesIn (← read "/etc/passwd") (userIn (← read "/proc/self/status"))

/-- What a path holds, as far as reading it tells. -/
def look (p : Path) : IO (Option Node) := do
  match p.toString? with
  | .error _ => return none
  | .ok name =>
    match ← (IO.FS.readBinFile name).toBaseIO with
    | .ok content => return some (.file content.toList true)
    | .error (.inappropriateType ..) => return some (.directory true)
    | .error (.permissionDenied ..) => return some (.file [] false)
    | .error _ => return none

/-- A picture of the places that some paths lead to. -/
def picture (paths : List Path) : IO FileTree := do
  let seen ← paths.mapM fun p => do
    let node ← look p
    return node.map fun n => (p.names, n)
  return FileTree.empty.writeAll (seen.filterMap id)

/-- Everything that can be read from the standard input. -/
def input : IO (List UInt8) := do
  let stdin ← IO.getStdin
  let bytes ← stdin.readBinToEnd
  return bytes.toList

/-- A machine on which every command prints the same. -/
def machine (output : List UInt8) : Machine :=
  ⟨Behaviour.ofSystem fun _ files => (files, .exited 0 output []), []⟩

/-- Prints what a run leaves, and gives its exit code. -/
def report (r : CommandLine.Result) : IO UInt32 := do
  for n in r.notices do
    IO.eprintln (n.level.name ++ ":" ++ n.origin ++ ":" ++ n.message)
  IO.print r.stdout
  match r.exit with
  | .ok code => return code.number.toUInt32
  | .error fault =>
    IO.eprintln fault.message
    return 1

end ScarbCrates.Process

open ScarbCrates in
/-- Runs the command line. -/
def main (words : List String) : IO UInt32 := do
  let env ← Process.environment
  let users ← Process.users
  let directory := Path.ofString (← IO.currentDir).toString
  let output ← if CommandLine.asksScarb env words then Process.input else pure []
  let text := (Text.ofOutput output).toOption.getD ""
  let files ← Process.picture (CommandLine.sights users env directory text words)
  let world := ⟨⟨files, directory⟩, Process.machine output⟩
  match CommandLine.run users env (some "scarb") world words with
  | .ok r => Process.report r
  | .error fault =>
    IO.eprintln fault.message
    return 1

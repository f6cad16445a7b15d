import ScarbCrates.CommandLine.Arguments
import ScarbCrates.Database
import ScarbCrates.Discovery

/-!
# Commands

What the commands do.  A command reads the world through a database, prints one JSON document or
nothing, and ends with an exit code.

* `CommandLine.execute` — a request.
* `CommandLine.run` — a whole command line.
-/

namespace ScarbCrates

namespace CommandLine

/-! ## Endings -/

/-- How a command ends. -/
inductive ExitCode
  | success
  | generalError
  | configError
  | backendError
deriving DecidableEq, Repr

/-- The number that a process exits with. -/
def ExitCode.number : ExitCode → Nat
  | .success => 0
  | .generalError => 1
  | .configError => 4
  | .backendError => 20

/-- Why a command breaks off. -/
inductive RunFault
  | discovery (fault : Discovery.Fault)
  | query (failure : Failure Database.ProjectFault)
  | output (fault : DatumFault)

/-- A failure of a query in words. -/
def failureMessage : Failure Database.ProjectFault → String
  | .raised fault => fault.message
  | .input fault => fault.message
  | .deadlock => "a query waits for itself"

/-- A fault in words. -/
def RunFault.message : RunFault → String
  | .discovery fault => fault.message
  | .query failure => failureMessage failure
  | .output fault => fault.message

/-- What a command leaves: its ending, what it has printed, its notices and the world. -/
structure Result where
  exit : Except RunFault ExitCode
  stdout : String
  notices : List Notice
  world : World Machine

/-! ## Printing -/

/-- The text of a payload on the standard output. -/
def rendered (payload : Datum) (pretty : Bool) : Except DatumFault String := do
  let plain ← payload.builtins true
  let text ← plain.dump pretty
  return text ++ "\n"

/-- A result that prints a payload. -/
def printing (payload : Datum) (pretty : Bool) (notices : List Notice) (w : World Machine) :
    Result :=
  match rendered payload pretty with
  | .ok text => ⟨.ok .success, text, notices, w⟩
  | .error fault => ⟨.error (.output fault), "", notices, w⟩

/-- A result that prints nothing. -/
def silent (exit : Except RunFault ExitCode) (notices : List Notice) (w : World Machine) :
    Result := ⟨exit, "", notices, w⟩

/-! ## Commands -/

/-- The part of the program that the notices are from. -/
def origin : String := "cli.commands._project"

/-- The variable that names the home directory. -/
def homeVariable : String := "HOME"

/-- Answers a query about the Scarb project of a manifest, and makes a result of the answer.  The
manifest of another project is a mistake in the arguments. -/
def withProject {α : Type} (homes : Homes) (w : World Machine) (manifest : Path)
    (query : Manifest → Database.Query α) (finish : α → List Notice → World Machine → Result) :
    Result :=
  match Manifest.ofArgument homes w.disk.directory manifest with
  | .error fault => silent (.error (.discovery (.home fault))) [] w
  | .ok (.cairoProject p) =>
    silent (.ok .configError) [⟨.error, origin, "not a Scarb manifest: " ++ p.shown⟩] w
  | .ok (.scarb p) =>
    match Session.run (query (.scarb p)) (Database.start w) with
    | (.error failure, s) => silent (.error (.query failure)) s.notices s.world
    | (.ok a, s) => finish a s.notices s.world

/-- What the command `discover` prints about a project. -/
def discovered (m : Manifest) : Datum :=
  .ofMembers [("kind", .ofString m.tag), ("manifest_path", .path m.path)]

/-- The version of the program. -/
def programVersion : String := "0.0.0-dev"

/-- What the command `version` prints.  Nothing is known of packages that are not there. -/
def versions : Datum :=
  .ofMembers [("cairo-project-model", .ofString programVersion), ("python", .null),
    ("platform", .null), ("dependencies", .ofMembers [("cyclopts", .null), ("msgspec", .null)])]

/-- The text that says what there is. -/
def usage : String :=
  "Usage: cairo-project-model COMMAND\n\nDerive compiler crates from Scarb workspaces.\n\n"
    ++ "  crates MANIFEST    List crates derived from a workspace\n"
    ++ "  metadata MANIFEST  Summarize scarb metadata\n"
    ++ "  discover PATH      Find the project owning a file\n"
    ++ "  version            Show version information\n"

/-- **Does what is asked for.** -/
def execute (t : Toolchain) (homes : Homes) (w : World Machine) : Request → Result
  | .crates manifest compact =>
    withProject homes w manifest (Database.crates t) fun cs =>
      printing (.ofList (cs.map Crate.toDatum)) (!compact)
  | .metadata manifest =>
    withProject homes w manifest (Database.metadata t) fun m =>
      match m with
      | none => silent (.ok .backendError)
      | some m => printing m.summary true
  | .discover start =>
    match Discovery.manifestOf homes w.disk start with
    | .error fault => silent (.error (.discovery fault)) [] w
    | .ok none => silent (.ok .generalError) [] w
    | .ok (some m) => printing (discovered m) true [] w
  | .version => printing versions true [] w
  | .programVersion => ⟨.ok .success, programVersion ++ "\n", [], w⟩
  | .help => ⟨.ok .success, usage, [], w⟩

/-- The home directories that a session knows of, where `users` are those that the system knows. -/
def homesIn (users : Homes) (env : Environment) : Homes := users.override (env.get? homeVariable)

/-- **Runs a command line.**  Notices below the session's log level are not kept. -/
def run (users : Homes) (env : Environment) (located : Option String) (w : World Machine)
    (words : List String) : Except UsageFault Result := do
  match asksEverywhere? words with
  | some request => return execute ⟨none, env, located⟩ (homesIn users env) w request
  | none =>
    let (config, rest) ← session env words
    let request ← Request.ofWords rest
    let r := execute (Database.toolchainOf config env located) (homesIn users env) w request
    let level := (Level.ofName? config.logLevel).getD .warning
    return { r with notices := Notice.atLeast level r.notices }

end CommandLine

end ScarbCrates

import ScarbCrates.Config
import ScarbCrates.Toolchain.Output
import ScarbCrates.Toolchain.Process

/-!
# Running Scarb

Scarb is asked for the metadata of a workspace by running a command.

* `Toolchain.executable` — which Scarb is run.
* `Toolchain.metadata` — one run, from the manifest to the metadata.
-/

namespace ScarbCrates

/-! ## Faults -/

/-- Why a run gives no metadata. -/
inductive ToolchainFault
  /-- There is no Scarb to run. -/
  | notFound
  /-- Scarb could not be started, or exited with a code other than zero. -/
  | command (code : Int) (err : String) (messages : List String)
  /-- The output holds no usable document. -/
  | metadata (fault : MetadataFault)
  /-- Running the command breaks off.  Nobody who asks for metadata is prepared for that. -/
  | process (fault : ProcessFault)

/-- The code of a command that could not be started. -/
def ToolchainFault.notStartedCode : Int := -1

/-- A fault in words. -/
def ToolchainFault.message : ToolchainFault → String
  | .notFound => "scarb executable not found: set SCARB or add scarb to PATH"
  | .command code err messages =>
    Text.trimRight (s!"scarb metadata failed rc={code}\n"
      ++ String.intercalate "\n" (messages ++ [Text.trim err]))
  | .metadata fault => fault.message
  | .process fault => fault.message

/-- The fault of the process, if the run has broken off. -/
def ToolchainFault.process? : ToolchainFault → Option ProcessFault
  | .process fault => some fault
  | _ => none

/-! ## The toolchain -/

/-- Where Scarb is looked for: a configured path, the environment, and the place where the search
path has it. -/
structure Toolchain where
  scarbPath : Option String
  environment : Environment
  located : Option String

namespace Toolchain

/-- The part of the program that the notices are from. -/
def origin : String := "project_model.toolchain"

/-- The variable that names a Scarb executable. -/
def scarbVariable : String := "SCARB"

/-- A text unless it is empty. -/
def nonEmpty? (s : Option String) : Option String := s.filter fun s => !s.isEmpty

/-- **The executable that is run:** the configured one, else the one that the environment names,
else the one on the search path. -/
def executable (t : Toolchain) : Except ToolchainFault String :=
  match nonEmpty? t.scarbPath, t.environment.value? scarbVariable, t.located with
  | some path, _, _ => .ok path
  | none, some path, _ => .ok path
  | none, none, some path => .ok path
  | none, none, none => .error .notFound

/-- The words of the command that asks for metadata. -/
def words (executable : String) (manifest : Path) : List Text :=
  [Text.ofString executable, Text.ofString "--json", Text.ofString "--manifest-path",
    manifest.text, Text.ofString "metadata", Text.ofString "--format-version",
    Text.ofString (toString Metadata.formatVersion)]

/-- The directory to start in: the manifest's, if there is one. -/
def startDirectory (d : Disk) (manifest : Path) : Except AccessFault (Option Path) :=
  (d.isDirectory manifest.parent).map fun isDirectory =>
    if isDirectory then some manifest.parent else none

/-- What the end of a run says about the workspace.  A code other than zero counts more than any
output. -/
def judge : Ending → Except ToolchainFault Metadata
  | .notStarted fault => .error (.command ToolchainFault.notStartedCode fault.message [])
  | .broken fault => .error (.process fault)
  | .exited code out err =>
    let scan := Scan.ofText out
    if code ≠ 0 then .error (.command code err scan.messages)
    else (Metadata.ofScan scan).mapError .metadata

/-- Runs a command. -/
def start (w : World Machine) (c : Command) : Ending × World Machine :=
  let (files, ending) := w.outside.behaviour c w.disk.files
  (ending, { disk := { w.disk with files := files },
             outside := { w.outside with started := w.outside.started ++ [c] } })

/-- **Runs Scarb for a manifest.**  A start directory that cannot be looked at is as bad as a
process that does not start. -/
def metadata (t : Toolchain) (manifest : Path) (w : World Machine) :
    Noted (Except ToolchainFault Metadata × World Machine) :=
  match t.executable with
  | .error fault => pure (.error fault, w)
  | .ok executable => do
    let ws := words executable manifest
    Noted.note .debug origin ("running " ++ (Datum.ofList (ws.map Datum.text)).literal)
    match startDirectory w.disk manifest with
    | .error fault =>
      return (.error (.command ToolchainFault.notStartedCode fault.message []), w)
    | .ok directory =>
      let (ending, w) := start w ⟨ws, directory⟩
      return (judge ending, w)

end Toolchain

end ScarbCrates

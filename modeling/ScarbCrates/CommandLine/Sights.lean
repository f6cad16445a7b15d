import ScarbCrates.CommandLine.Run

/-!
# What a request looks at

A request is answered from a picture of the file tree.  The picture has to show the places that
the answer depends on, and these can be told from the request and from what Scarb says.

* `CommandLine.sights` — the paths to look at.
-/

namespace ScarbCrates

namespace CommandLine

/-- The manifests that a search from a path may meet, and the path itself. -/
def searchSights (start : Path) : List Path :=
  start :: start.selfAndParents.flatMap fun directory =>
    [directory, directory.child Manifest.cairoProjectToml, directory.child Manifest.scarbToml]

/-- The files that metadata names. -/
def metadataSights (m : Metadata) : List Path :=
  m.memberPackages.map (·.manifestPath)
    ++ m.compilationUnits.flatMap fun unit => unit.components.map (·.sourcePath)

/-- The files of a workspace: those beside its manifest, and those that Scarb's output names. -/
def workspaceSights (manifest : Path) (output : String) : List Path :=
  [manifest.parent, manifest] ++ (Manifest.lockPath? manifest).toList
    ++ match Metadata.ofScan (Scan.ofText output) with
      | .ok m => metadataSights m
      | .error _ => []

/-- The paths that a request looks at, by absolute paths. -/
def Request.sights (homes : Homes) (directory : Path) (output : String) :
    Request → List Path
  | .crates manifest _ | .metadata manifest =>
    match Path.expandHome homes manifest with
    | .ok p => (workspaceSights (p.absoluteFrom directory) output).map (·.absoluteFrom directory)
    | .error _ => []
  | .discover start =>
    match Path.expandHome homes start with
    | .ok p => searchSights (p.absoluteFrom directory)
    | .error _ => []
  | .version | .programVersion | .help => []

/-- **The paths that a command line looks at.**  One that asks for nothing looks at nothing. -/
def sights (users : Homes) (env : Environment) (directory : Path) (output : String)
    (words : List String) : List Path :=
  match session env words with
  | .error _ => []
  | .ok (_, rest) =>
    match Request.ofWords rest with
    | .error _ => []
    | .ok request => request.sights (homesIn users env) directory output

/-- Whether a command line has Scarb run. -/
def asksScarb (env : Environment) (words : List String) : Bool :=
  match session env words with
  | .error _ => false
  | .ok (_, rest) =>
    match Request.ofWords rest with
    | .ok (.crates _ _) | .ok (.metadata _) => true
    | _ => false

end CommandLine

end ScarbCrates

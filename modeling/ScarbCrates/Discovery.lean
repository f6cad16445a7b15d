import ScarbCrates.FileTree.Disk
import ScarbCrates.Manifest

/-!
# Finding the project of a file

From the directory of a file upwards, the first directory with a manifest is the project's.  In
one directory a `cairo_project.toml` goes before a `Scarb.toml`.
-/

namespace ScarbCrates

namespace Discovery

/-- Why a search cannot be made: the home directory is not found, or a place cannot be looked
at. -/
inductive Fault
  | home (fault : Path.HomeFault)
  | access (fault : AccessFault)
deriving DecidableEq

/-- A fault in words. -/
def Fault.message : Fault → String
  | .home fault => fault.message
  | .access fault => fault.message

/-- The manifest in a directory. -/
def manifestIn (d : Disk) (directory : Path) : Except AccessFault (Option Manifest) := do
  let cairoProject := directory.child Manifest.cairoProjectToml
  if ← d.isFile cairoProject then return some (.cairoProject cairoProject)
  let scarb := directory.child Manifest.scarbToml
  if ← d.isFile scarb then return some (.scarb scarb)
  return none

/-- The first manifest in some directories. -/
def firstManifest (d : Disk) : List Path → Except AccessFault (Option Manifest)
  | [] => .ok none
  | directory :: rest =>
    match manifestIn d directory with
    | .error fault => .error fault
    | .ok (some m) => .ok (some m)
    | .ok none => firstManifest d rest

/-- The directory in which the search for a file's project starts: the path itself if it is a
directory, else its parent. -/
def startDirectory (d : Disk) (start : Path) : Except AccessFault Path :=
  (d.isDirectory start).map fun isDirectory => if isDirectory then start else start.parent

/-- The project that owns an absolute path. -/
def ownerOf (d : Disk) (start : Path) : Except AccessFault (Option Manifest) := do
  let directory ← startDirectory d start
  firstManifest d directory.selfAndParents

/-- **The project that owns a file** as a user names it. -/
def manifestOf (homes : Homes) (d : Disk) (p : Path) : Except Fault (Option Manifest) :=
  match Path.expandHome homes p with
  | .error fault => .error (.home fault)
  | .ok q => (ownerOf d (q.absoluteFrom d.directory)).mapError .access

end Discovery

end ScarbCrates

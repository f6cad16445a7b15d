import ScarbCrates.FileTree.Disk

/-!
# Source roots

A component names one source file.  The directory of that file is the root of a crate, and the
file's stem its entry; a file for which this makes no sense is rejected.

* `SourceRoot.check` — the checks in their order; the first that fails decides.
-/

namespace ScarbCrates

/-- A source file taken apart: the directory that it is in, and its stem. -/
structure SourceRoot where
  root : Path
  stem : String
deriving DecidableEq

/-- Why a source file is rejected. -/
inductive RejectionCause
  | io (errno : Errno)
  | isDirectory
  | noParent
  | relativeRoot
  | noFileStem
  | nonUtf8Stem
deriving DecidableEq, Repr

/-- The word for a cause. -/
def RejectionCause.kind : RejectionCause → String
  | .io _ => "io_error"
  | .isDirectory => "is_directory"
  | .noParent => "no_parent"
  | .relativeRoot => "relative_root"
  | .noFileStem => "no_file_stem"
  | .nonUtf8Stem => "non_utf8_stem"

/-- A rejected source file of a component. -/
structure Rejection where
  crateName : String
  path : Path
  cause : RejectionCause
deriving DecidableEq

/-- A rejection in words. -/
def Rejection.reason (r : Rejection) : String :=
  match r.cause with
  | .io errno =>
    "io error when accessing source path of: " ++ r.crateName ++ ": " ++ osMessage errno r.path
  | .isDirectory =>
    "source path of component `" ++ r.crateName ++ "` must not be a directory: " ++ r.path.shown
  | .noParent =>
    "unexpected fs root as a source path of component `" ++ r.crateName ++ "`: " ++ r.path.shown
  | .relativeRoot => "source path must be absolute: " ++ r.path.shown
  | .noFileStem =>
    "failed to get file stem for component `" ++ r.crateName ++ "`: " ++ r.path.shown
  | .nonUtf8Stem => "file stem is not utf-8: " ++ r.path.described

namespace SourceRoot

/-- The directory and stem of a path with a final name, when the path is absolute and the stem is
a text. -/
def ofName (p : Path) (n : Name) : Except RejectionCause SourceRoot :=
  if !p.isAbsolute then .error .relativeRoot
  else if n.stemBytes.isEmpty then .error .noFileStem
  else match Text.toString? (Text.decode n.stemBytes) with
    | .ok stem => .ok ⟨p.parent, stem⟩
    | .error _ => .error .nonUtf8Stem

/-- The directory and stem of a path that leads to a node. -/
def ofNode (p : Path) (node : Node) : Except RejectionCause SourceRoot :=
  if node.isDirectory then .error .isDirectory
  else match p.name? with
    | none => .error .noParent
    | some n => ofName p n

/-- **Checks the source file of a component.**  A path with a byte zero cannot even be looked
at. -/
def check (d : Disk) (p : Path) (crateName : String) :
    Except AccessFault (Except Rejection SourceRoot) :=
  match d.stat p with
  | .error .nul => .error .nul
  | .error (.os errno _) => .ok (.error ⟨crateName, p, .io errno⟩)
  | .ok node => .ok ((ofNode p node).mapError fun cause => ⟨crateName, p, cause⟩)

end SourceRoot

end ScarbCrates

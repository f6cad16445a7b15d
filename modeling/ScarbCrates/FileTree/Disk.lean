import ScarbCrates.FileTree.Basic

/-!
# Following paths

A disk is a file tree with a working directory.  A path is followed one component at a time from
`/`, a relative one after the working directory, and the first component that cannot be passed
decides the error.

* `Disk.locate` — the place that a path leads to.
* `Disk.stat`, `Disk.read` — what is there.
* `Disk.isFile`, `Disk.isDirectory` — questions to which a missing file is an answer.
* `World` — a disk with whatever else there is.
-/

namespace ScarbCrates

/-! ## Faults -/

/-- Why the operating system refuses a path. -/
inductive Errno
  | noEntry
  | accessDenied
  | notDirectory
  | isDirectory
  | nameTooLong
deriving DecidableEq, Repr

/-- The number of an error. -/
def Errno.number : Errno → Nat
  | .noEntry => 2
  | .accessDenied => 13
  | .notDirectory => 20
  | .isDirectory => 21
  | .nameTooLong => 36

/-- An error in words. -/
def Errno.description : Errno → String
  | .noEntry => "No such file or directory"
  | .accessDenied => "Permission denied"
  | .notDirectory => "Not a directory"
  | .isDirectory => "Is a directory"
  | .nameTooLong => "File name too long"

/-- Why a path cannot be used: the operating system refuses it, or it holds a byte zero and never
gets there. -/
inductive AccessFault
  | nul
  | os (errno : Errno) (path : Path)
deriving DecidableEq

/-- The text of an operating-system error about a path. -/
def osMessage (errno : Errno) (path : Path) : String :=
  s!"[Errno {errno.number}] {errno.description}: " ++ path.quoted

/-- A fault in words. -/
def AccessFault.message : AccessFault → String
  | .nul => "embedded null byte"
  | .os errno path => osMessage errno path

/-! ## The disk -/

/-- A file tree seen from a working directory. -/
structure Disk where
  files : FileTree
  directory : Path

namespace Disk

instance : Inhabited Disk := ⟨⟨.empty, .top⟩⟩

/-- The longest name, in bytes. -/
def longestName : Nat := 255

/-- The longest path, in bytes. -/
def longestPath : Nat := 4095

/-- One step from a place: only a directory that can be reached has entries. -/
def enter (t : FileTree) (here : Location) (n : Name) : Except Errno Location :=
  match t.node? here with
  | none => .error .noEntry
  | some (.file _ _) => .error .notDirectory
  | some (.directory false) => .error .accessDenied
  | some (.directory true) =>
    if n = .up then .ok here.dropLast
    else if longestName < n.bytes.length then .error .nameTooLong
    else if (t.node? (here ++ [n])).isSome then .ok (here ++ [n])
    else .error .noEntry

/-- The place that some names lead to from a place. -/
def walk (t : FileTree) : Location → List Name → Except Errno Location
  | here, [] => .ok here
  | here, n :: rest =>
    match enter t here n with
    | .error e => .error e
    | .ok there => walk t there rest

/-- The names that lead from `/` to a path. -/
def namesFromTop (d : Disk) (p : Path) : List Name := (p.absoluteFrom d.directory).names

/-- Whether the spelling of a path holds a byte zero. -/
def holdsNul (p : Path) : Bool := p.bytes.any (· == 0)

/-- **The place that a path leads to.** -/
def locate (d : Disk) (p : Path) : Except AccessFault Location :=
  if holdsNul p then .error .nul
  else if longestPath < p.bytes.length then .error (.os .nameTooLong p)
  else match walk d.files [] (d.namesFromTop p) with
    | .error e => .error (.os e p)
    | .ok l => .ok l

/-- What a path leads to. -/
def stat (d : Disk) (p : Path) : Except AccessFault Node :=
  match d.locate p with
  | .error e => .error e
  | .ok l =>
    match d.files.node? l with
    | some n => .ok n
    | none => .error (.os .noEntry p)

/-- **The bytes of a file.** -/
def read (d : Disk) (p : Path) : Except AccessFault (List UInt8) :=
  match d.stat p with
  | .error e => .error e
  | .ok (.directory _) => .error (.os .isDirectory p)
  | .ok (.file content readable) => if readable then .ok content else .error (.os .accessDenied p)

/-- The answer to a question about what a path leads to.  A path that leads nowhere has the answer
no; only a place that cannot be looked at has none. -/
def ask (d : Disk) (p : Path) (question : Node → Bool) : Except AccessFault Bool :=
  match d.stat p with
  | .ok n => .ok (question n)
  | .error .nul => .ok false
  | .error (.os .noEntry _) => .ok false
  | .error (.os .notDirectory _) => .ok false
  | .error e => .error e

/-- Whether a path leads to a directory. -/
def isDirectory (d : Disk) (p : Path) : Except AccessFault Bool := d.ask p Node.isDirectory

/-- Whether a path leads to a file. -/
def isFile (d : Disk) (p : Path) : Except AccessFault Bool := d.ask p fun n => !n.isDirectory

/-- The disk after a change of its files. -/
def change (d : Disk) (f : FileTree → FileTree) : Disk := { d with files := f d.files }

end Disk

/-! ## The world -/

/-- What a computation can observe and change: a disk, and what lies outside it. -/
structure World (σ : Type) where
  disk : Disk
  outside : σ

namespace World

variable {σ : Type}

/-- The world after a change of its files. -/
def changeFiles (w : World σ) (f : FileTree → FileTree) : World σ :=
  { w with disk := w.disk.change f }

/-- The world after a write. -/
def write (w : World σ) (l : Location) (n : Node) : World σ := w.changeFiles (·.write l n)

/-- The world after a removal. -/
def remove (w : World σ) (l : Location) : World σ := w.changeFiles (·.remove l)

end World

end ScarbCrates

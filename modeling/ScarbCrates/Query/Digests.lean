import ScarbCrates.Assoc
import ScarbCrates.Datum.Encode
import ScarbCrates.FileTree.Disk
import ScarbCrates.Notice

/-!
# Digests of files

The content of a file stands for the file: as long as the digests of all files that went into a
result are the same, so is the result.  A file that cannot be read has no digest, which is a state
that can be told from any content.

* `Digests.ofFile`, `Digests.current` — digests as of now.
* `Digests.declare`, `Digests.merge` — what a computation has seen; first observations stay.
* `Digests.fingerprint` — one text for a whole table, whatever its order.
-/

namespace ScarbCrates

/-- Files with their digests, in the order in which they were first mentioned. -/
abbrev Digests := List (Path × Option String)

namespace Digests

/-- The part of the program that the notices are from. -/
def origin : String := "project_model.digests"

/-- A computation that may fail because a path has a byte zero. -/
abbrev Reading := ExceptT AccessFault Noted

/-- The digest of a file that is read in pieces. -/
def hashOf (d : Disk) (size : Sha256.PieceSize) (p : Path) : Except AccessFault String :=
  (d.read p).map (Sha256.hashInPieces size)

/-- Why a file is not hashed: it cannot be read, or not in pieces of the size asked for. -/
inductive HashFault
  | access (fault : AccessFault)
  | size (fault : Sha256.SizeFault)
deriving DecidableEq

/-- A fault in words. -/
def HashFault.message : HashFault → String
  | .access fault => fault.message
  | .size fault => fault.message

/-- **The digest of a file that is read `size` bytes at a time.**  A file that cannot be opened counts
more than a size that is none. -/
def hashFile (d : Disk) (size : Int) (p : Path) : Except HashFault String :=
  match d.read p, Sha256.PieceSize.ofInt size with
  | .error fault, _ => .error (.access fault)
  | .ok _, .error fault => .error (.size fault)
  | .ok bytes, .ok size => .ok (Sha256.hashInPieces size bytes)

/-- **The digest of a file's content;** `none` if the file cannot be read. -/
def ofFile (d : Disk) (p : Path) : Reading (Option String) :=
  match hashOf d Sha256.fileBuffer p with
  | .ok digest => pure (some digest)
  | .error .nul => throw .nul
  | .error fault => do
    ExceptT.lift (Noted.note .debug origin
      ("untrackable file content for digest: " ++ p.shown ++ ": " ++ fault.message))
    return none

/-- The digests of some files after those that have been taken. -/
def currentFrom (d : Disk) (taken : Digests) : List Path → Reading Digests
  | [] => pure taken
  | p :: rest => do
    let digest ← ofFile d p
    currentFrom d (Assoc.put taken p digest) rest

/-- The digests of some files as of now. -/
def current (d : Disk) (ps : List Path) : Reading Digests := currentFrom d [] ps

/-- The files of a table in their order. -/
def files (ds : Digests) : List Path := Assoc.keys ds

/-- **Mentions a file.**  Its digest is taken at the first mention and never again. -/
def declare (d : Disk) (ds : Digests) (p : Path) : Reading Digests :=
  if Assoc.has ds p then pure ds
  else do
    let digest ← ofFile d p
    return Assoc.keep ds p digest

/-- Adopts the files of another table; those that are there already stay as they are. -/
def merge (ds other : Digests) : Digests := other.foldl (fun t e => Assoc.keep t e.1 e.2) ds

/-- A digest or its absence. -/
def digestDatum (digest : Option String) : Datum := .ofOption digest

/-- What a table's fingerprint is taken of: the paths by their texts. -/
def payload (ds : Digests) : Datum :=
  .ofMembers [("version", .int 1),
    ("files", .dict (ds.map fun e => (.text e.1.text, digestDatum e.2)))]

/-- **One text for a table,** whatever the order of its files. -/
def fingerprint (ds : Digests) : Except DatumFault String := (payload ds).fingerprint

end Digests

end ScarbCrates

import ScarbCrates.Path.Basic

/-!
# File trees

The files that a program can see: which places hold a file, with which bytes, and which hold a
directory.  A place is the list of names that leads to it from `/`.

* `FileTree.node?` — what a place holds.
* `FileTree.write`, `FileTree.remove` — the two ways in which a tree changes.
-/

namespace ScarbCrates

/-- A place in a tree: the names that lead to it from `/`. -/
abbrev Location := List Name

/-- What a place holds.  A file may refuse to be opened, and a directory may refuse to be
entered, though both can be seen. -/
inductive Node
  | file (content : List UInt8) (readable : Bool)
  | directory (reachable : Bool)
deriving DecidableEq

/-- Whether a node is a directory, reachable or not. -/
def Node.isDirectory : Node → Bool
  | .directory _ => true
  | .file _ _ => false

/-- A tree: the places that hold something. -/
structure FileTree where
  nodes : List (Location × Node)

namespace FileTree

/-- Nothing but the directory `/`. -/
def empty : FileTree := ⟨[]⟩

instance : Inhabited FileTree := ⟨empty⟩

/-- What a place holds; `/` is a directory unless something else is said. -/
def node? (t : FileTree) (l : Location) : Option Node :=
  match t.nodes.lookup l with
  | some n => some n
  | none => if l.isEmpty then some (.directory true) else none

/-- Puts a node at a place and leaves all others. -/
def put (t : FileTree) (l : Location) (n : Node) : FileTree :=
  ⟨(l, n) :: t.nodes.filter (·.1 != l)⟩

@[simp]
theorem node?_put_self (t : FileTree) (l : Location) (n : Node) : (t.put l n).node? l = some n := by
  simp [node?, put]

/-- Makes a place a directory if it holds nothing. -/
def ensureDirectory (t : FileTree) (l : Location) : FileTree :=
  if (t.node? l).isSome then t else t.put l (.directory true)

/-- The places above a place, from `/` down. -/
def above (l : Location) : List Location := (List.range l.length).map fun n => l.take n

/-- **Writes a node.**  Places above it that hold nothing become directories; what is recorded
below it stays. -/
def write (t : FileTree) (l : Location) (n : Node) : FileTree :=
  ((above l).foldl ensureDirectory t).put l n

/-- **Removes a place** and everything below it. -/
def remove (t : FileTree) (l : Location) : FileTree :=
  ⟨t.nodes.filter fun entry => !l.isPrefixOf entry.1⟩

/-- Several writes, one after the other. -/
def writeAll (t : FileTree) (nodes : List (Location × Node)) : FileTree :=
  nodes.foldl (fun t entry => t.write entry.1 entry.2) t

end FileTree

end ScarbCrates

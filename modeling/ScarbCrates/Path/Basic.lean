import ScarbCrates.Text.Quoted

/-!
# Paths

A path is a root and a list of names.  The names are byte sequences, as the file system has them.
Reading a path from text forgets what does not matter to the file system (repeated and trailing
slashes, `.` components) and keeps what may (`..`, and two leading slashes as a root of their
own), so that two paths are equal exactly when their normalised texts are.

* `Path.ofBytes`, `Path.bytes` — the normalised spelling, read and written.
* `Path.join`, `Path.child`, `Path.parent` — moving about.
-/

namespace ScarbCrates

/-! ## Names -/

/-- The slash between names. -/
def slash : UInt8 := 0x2F

/-- The full stop. -/
def dot : UInt8 := 0x2E

/-- One component of a path: not empty, without a slash, and not `.`, which names nothing new. -/
structure Name where
  bytes : List UInt8
  ne_nil : bytes ≠ []
  no_slash : slash ∉ bytes
  ne_dot : bytes ≠ [dot]
deriving DecidableEq

namespace Name

/-- The name with the given bytes, if they are a name. -/
def ofBytes? (bytes : List UInt8) : Option Name :=
  if h : bytes ≠ [] ∧ slash ∉ bytes ∧ bytes ≠ [dot] then some ⟨bytes, h.1, h.2.1, h.2.2⟩ else none

/-- The name `..`, which leads to the parent directory. -/
def up : Name := ⟨[dot, dot], by decide, by decide, by decide⟩

/-- The letters of a name. -/
def text (n : Name) : Text := Text.decode n.bytes

/-- The bytes before the last full stop, when that is neither the first nor the last byte;
otherwise all of them. -/
def stemBytes (n : Name) : List UInt8 :=
  let tail := n.bytes.reverse.takeWhile (· ≠ dot)
  let head := n.bytes.take (n.bytes.length - tail.length - 1)
  if tail.length < n.bytes.length ∧ tail ≠ [] ∧ head ≠ [] then head else n.bytes

/-- What follows the stem: nothing, or a full stop and the bytes after it. -/
def suffixBytes (n : Name) : List UInt8 := n.bytes.drop n.stemBytes.length

end Name

/-! ## Paths -/

/-- What a path starts with: nothing, one slash, or exactly two. -/
inductive Root
  | none
  | single
  | double
deriving DecidableEq, Repr

/-- A path: where it starts and the names that it goes through. -/
structure Path where
  root : Root
  names : List Name
deriving DecidableEq

namespace Path

/-- The path `/`. -/
def top : Path := ⟨.single, []⟩

instance : Inhabited Path := ⟨top⟩

/-- The bytes between slashes. -/
def pieces : List UInt8 → List (List UInt8)
  | [] => [[]]
  | b :: rest =>
    if b = slash then [] :: pieces rest
    else match pieces rest with
      | piece :: more => (b :: piece) :: more
      | [] => [[b]]

/-- The root that leading slashes spell: three or more are as good as one. -/
def rootOf (bytes : List UInt8) : Root :=
  match (bytes.takeWhile (· = slash)).length with
  | 0 => .none
  | 2 => .double
  | _ => .single

/-- **A path from its spelling in bytes.** -/
def ofBytes (bytes : List UInt8) : Path := ⟨rootOf bytes, (pieces bytes).filterMap Name.ofBytes?⟩

/-- A path from its text. -/
def ofText (t : Text) : Path := ofBytes (Text.encode t)

/-- A path from a string. -/
def ofString (s : String) : Path := ofText (Text.ofString s)

/-- The slashes of a root. -/
def rootBytes : Root → List UInt8
  | .none => []
  | .single => [slash]
  | .double => [slash, slash]

/-- The names with slashes between them. -/
def joinNames : List Name → List UInt8
  | [] => []
  | [n] => n.bytes
  | n :: rest => n.bytes ++ slash :: joinNames rest

/-- **The normalised spelling.**  The path that starts nowhere and goes nowhere is `.`. -/
def bytes (p : Path) : List UInt8 :=
  match p.root, p.names with
  | .none, [] => [dot]
  | root, names => rootBytes root ++ joinNames names

/-- The letters of the normalised spelling. -/
def text (p : Path) : Text := Text.decode p.bytes

/-- The path for a message. -/
def shown (p : Path) : String := Text.shown p.text

/-- The path between quotes. -/
def quoted (p : Path) : String := Text.quoted p.text

/-- The path with the name of its type, as diagnostics tell a path from a text. -/
def described (p : Path) : String := "PosixPath(" ++ p.quoted ++ ")"

/-- The path as a string, or the stray bytes that stand in the way. -/
def toString? (p : Path) : Except Text.StrayRun String := Text.toString? p.text

/-- Absolute paths have a root. -/
def isAbsolute (p : Path) : Bool := p.root != .none

/-- Whether a path has a final name; `/` and `.` have none. -/
def hasName (p : Path) : Bool := !p.names.isEmpty

/-- The final name. -/
def name? (p : Path) : Option Name := p.names.getLast?

/-- The path without its final name. -/
def parent (p : Path) : Path := ⟨p.root, p.names.dropLast⟩

/-- The path with one more name. -/
def child (p : Path) (n : Name) : Path := ⟨p.root, p.names ++ [n]⟩

/-- One path after the other: an absolute one starts afresh. -/
def join (p q : Path) : Path := if q.isAbsolute then q else ⟨p.root, p.names ++ q.names⟩

/-- The path as seen from a directory. -/
def absoluteFrom (p directory : Path) : Path := directory.join p

/-- The path with another final name. -/
def withName? (p : Path) (n : Name) : Option Path :=
  if p.hasName then some (p.parent.child n) else none

/-- The path and the directories above it, nearest first. -/
def selfAndParents (p : Path) : List Path :=
  (List.range (p.names.length + 1)).map fun n => ⟨p.root, p.names.take (p.names.length - n)⟩

/-! ## Order -/

/-- The texts by which paths are ordered: the root, then the names. -/
def parts (p : Path) : List Text :=
  let root := Text.decode (rootBytes p.root)
  (if root.isEmpty then [] else [root]) ++ p.names.map Name.text

/-- Lists in the order of their first difference. -/
def compareLists {α : Type} (cmp : α → α → Ordering) : List α → List α → Ordering
  | [], [] => .eq
  | [], _ :: _ => .lt
  | _ :: _, [] => .gt
  | x :: xs, y :: ys =>
    match cmp x y with
    | .eq => compareLists cmp xs ys
    | o => o

/-- Paths in the order of their parts. -/
def compare (p q : Path) : Ordering := compareLists Text.compare p.parts q.parts

end Path

end ScarbCrates

import ScarbCrates.Path.Basic

/-!
# Paths in the home directory

A relative path whose first name begins with `~` stands for a place in a home directory: in the
user's own, or in that of the user whose name follows.

* `Homes` — the home directories that are known.
* `Path.expandHome` — a path with its home directory.
-/

namespace ScarbCrates

/-- The home directories that are known, as bytes: the user's own, and those of users by their
names. -/
structure Homes where
  own : Option (List UInt8)
  ofUser : List UInt8 → Option (List UInt8)

namespace Homes

/-- No home directory is known. -/
def unknown : Homes := ⟨none, fun _ => none⟩

/-- The home directories where a setting names the user's own: it counts more than what the system
says. -/
def override (homes : Homes) (setting : Option String) : Homes :=
  { homes with own := (setting.map fun home => Text.encode (Text.ofString home)).or homes.own }

end Homes

namespace Path

/-- Why a home directory is not found: none is known, or the name of the user holds a byte zero. -/
inductive HomeFault
  | unknown
  | nul
deriving DecidableEq

/-- The fault in words. -/
def HomeFault.message : HomeFault → String
  | .unknown => "Could not determine home directory."
  | .nul => "embedded null byte"

/-- The character that stands for a home directory. -/
def tilde : UInt8 := 0x7E

/-- The home directory of the user whose name follows the `~`; without a name it is the user's
own. -/
def homeBytes (homes : Homes) (user : List UInt8) : Except HomeFault (Option (List UInt8)) :=
  if user.isEmpty then .ok homes.own
  else if user.any (· == 0) then .error .nul
  else .ok (homes.ofUser user)

/-- The path that a home directory spells: slashes at its end do not count, and without anything else
it is `/`.  A home that is itself spelt with `~` is none. -/
def homeOf? (home : List UInt8) : Option Path :=
  match (home.reverse.dropWhile (· = slash)).reverse with
  | [] => some top
  | b :: rest => if b = tilde then none else some (ofBytes (b :: rest))

/-- The home directory that a first name stands for, if it begins with `~`. -/
def homeNamed (homes : Homes) (n : Name) : Except HomeFault (Option Path) :=
  if n.bytes.head? ≠ some tilde then .ok none
  else match homeBytes homes n.bytes.tail with
    | .error fault => .error fault
    | .ok home =>
      match home.bind homeOf? with
      | some directory => .ok (some directory)
      | none => .error .unknown

/-- **The path with `~` replaced.** -/
def expandHome (homes : Homes) (p : Path) : Except HomeFault Path :=
  match p.root, p.names with
  | .none, n :: rest =>
    (homeNamed homes n).map fun
      | some directory => ⟨directory.root, directory.names ++ rest⟩
      | none => p
  | _, _ => .ok p

end Path

end ScarbCrates

import ScarbCrates.Json.Syntax
import ScarbCrates.Text.Quoted

/-!
# Data that is not of the expected form

Where a value does not fit, what was expected there, and how a message says so.

* `Place` — the way from the whole to one of its parts, written `$.name[0]`.
* `Mismatch` — what does not fit.
* `ReadFault` — everything that can go wrong on the way from a text to typed data.
-/

namespace ScarbCrates

/-! ## Places -/

/-- One step from a value to a part of it.  All values of an open-ended object are one step away
in the same way, whatever their names. -/
inductive PlaceStep
  | item (index : Nat)
  | member (name : String)
  | anyMember
deriving DecidableEq, Repr

/-- The way from the whole to a part of it, outermost step first. -/
abbrev Place := List PlaceStep

/-- A step in words. -/
def PlaceStep.render : PlaceStep → String
  | .item i => s!"[{i}]"
  | .member name => "." ++ name
  | .anyMember => "[...]"

/-- A place in words; `$` is the whole. -/
def Place.render (p : Place) : String := p.foldl (fun s step => s ++ step.render) "$"

/-! ## Mismatches -/

/-- The kinds of values that a schema tells apart. -/
inductive Kind
  | bool
  | int
  | float
  | str
  | object
  | array
  | null
  | named (name : String)
deriving DecidableEq, Repr

/-- The name of a kind. -/
def Kind.name : Kind → String
  | .bool => "bool"
  | .int => "int"
  | .float => "float"
  | .str => "str"
  | .object => "object"
  | .array => "array"
  | .null => "null"
  | .named name => name

/-- What does not fit. -/
inductive Mismatch
  /-- A value of one of these kinds is expected. -/
  | kind (expected : List Kind) (got : Option Kind)
  /-- A list of this length is expected. -/
  | length (expected : Nat) (got : Option Nat)
  /-- An object lacks a member. -/
  | missing (name : String)
  /-- An object has a member that it must not have. -/
  | unknown (name : String)
  /-- A text is none of the choices. -/
  | choice (value : String)
  /-- The text that tells two forms of an object apart is neither's. -/
  | tag (value : String)
  /-- A number is too large; an integer, if it has too many digits. -/
  | tooLarge (isWhole : Bool)
deriving DecidableEq, Repr

/-- Kinds between backquotes. -/
def Kind.alternatives (ks : List Kind) : String :=
  "`" ++ String.intercalate " | " (ks.map Kind.name) ++ "`"

/-- A mismatch in words. -/
def Mismatch.message : Mismatch → String
  | .kind expected none => "Expected " ++ Kind.alternatives expected
  | .kind expected (some got) =>
    "Expected " ++ Kind.alternatives expected ++ ", got " ++ Kind.alternatives [got]
  | .length expected none => s!"Expected `array` of length {expected}"
  | .length expected (some got) => s!"Expected `array` of length {expected}, got {got}"
  | .missing name => "Object missing required field `" ++ name ++ "`"
  | .unknown name => "Object contains unknown field `" ++ name ++ "`"
  | .choice value => "Invalid enum value " ++ Text.quote value
  | .tag value => "Invalid value '" ++ value ++ "'"
  | .tooLarge true => "Integer value out of range"
  | .tooLarge false => "Number out of range"

/-- Whether the value at a place is at fault, or the name of a member there. -/
inductive Subject
  | value
  | name
deriving DecidableEq, Repr

/-- A mismatch and where it is. -/
structure SchemaFault where
  mismatch : Mismatch
  place : Place
  subject : Subject
deriving DecidableEq, Repr

/-- A mismatch in words, with its place unless that is the whole. -/
def SchemaFault.message (f : SchemaFault) : String :=
  match f.subject with
  | .name => f.mismatch.message ++ " - at `key` in `" ++ f.place.render ++ "`"
  | .value =>
    if f.place.isEmpty then f.mismatch.message
    else f.mismatch.message ++ " - at `" ++ f.place.render ++ "`"

/-- What goes wrong on the way from a text to typed data: the text is malformed, a string in it is
no UTF-8, or the data is not of the expected form. -/
inductive ReadFault
  | malformed (fault : Json.SyntaxFault)
  | garbled (fault : Utf8.Fault)
  | schema (fault : SchemaFault)
deriving DecidableEq, Repr

/-- A fault in words. -/
def ReadFault.message : ReadFault → String
  | .malformed fault => fault.message
  | .garbled fault => fault.message
  | .schema fault => fault.message

/-- The fault that a value does not fit at a place. -/
def ReadFault.at (place : Place) (mismatch : Mismatch) : ReadFault :=
  .schema ⟨mismatch, place, .value⟩

end ScarbCrates

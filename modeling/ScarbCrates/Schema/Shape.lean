import ScarbCrates.Json.Draft
import ScarbCrates.Path.Basic
import ScarbCrates.Schema.Fault

/-!
# What a typed reader sees

Typed data is read from several sources: from the draft of a JSON text, where faults of the text
are met on the way; from a JSON value; and from data in memory, which may hold values that JSON
has no form for.  A source shows its values one layer at a time as a `Shape`, and a reader is
written once for all sources.
-/

namespace ScarbCrates

/-- The name of a member: a text, no UTF-8, or a value of another kind.  What an enumeration calls
by a name of its own is a name for an object with any names, but not for a record. -/
inductive MemberName
  | text (s : String)
  | symbol (s : String)
  | garbled (fault : Utf8.Fault)
  | other (kind : Kind)
deriving DecidableEq, Repr

/-- One layer of a value whose parts are of type `ι`. -/
inductive Shape (ι : Type)
  | null
  | bool (b : Bool)
  | int (i : Int)
  /-- An integer that is one only for a reader who wants an integer; for any other it is a
  floating-point number. -/
  | wide (i : Int)
  | float (x : Binary64)
  | tooLarge (isWhole : Bool)
  | text (s : String)
  | garbled (fault : Utf8.Fault)
  | array (items : List ι) (stop : Option Json.SyntaxFault)
  /-- Items in no order; a reader of a list takes them in any. -/
  | set (items : List ι)
  | object (members : List (MemberName × ι)) (stop : Option Json.Break)
  /-- Data that is typed already: its class and the fields that differ from their defaults. -/
  | record (kind : String) (fields : List (String × ι))
  | path (p : Path)
  | other (kind : Kind)
  | broken (fault : Json.SyntaxFault)

/-- The kind of a value as a mismatch names it. -/
def Shape.kind {ι : Type} : Shape ι → Kind
  | .null => .null
  | .bool _ => .bool
  | .int _ => .int
  | .wide _ => .float
  | .float _ => .float
  | .tooLarge _ => .float
  | .text _ => .str
  | .garbled _ => .str
  | .array _ _ => .array
  | .set _ => .named "set"
  | .object _ _ => .object
  | .record kind _ => .named kind
  | .path _ => .named "PosixPath"
  | .other kind => kind
  | .broken _ => .null

/-- A source of values that typed data can be read from.  `ρ` is what remains of a value of which
no type is asked. -/
class Readable (ι : Type) (ρ : outParam Type) where
  /-- The layer in front. -/
  look : ι → Shape ι
  /-- The value as it is, unless it holds a fault. -/
  raw : Place → ι → Except ReadFault ρ
  /-- Goes past a value of which nothing is asked. -/
  skip : ι → Except ReadFault Unit
  /-- The class of a value, where a reader asks for another class. -/
  className : ι → String
  /-- The text of a tag, or what a value is called that stands in the place of one. -/
  tag : ι → Except ReadFault (String ⊕ Option Kind)
  /-- Whether the length of a list is known before its items are read. -/
  countsAhead : Bool

namespace Json

/-! ## Drafts -/

/-- The fault of a break for a reader who wants the names of all members as texts. -/
def Break.readFault (stop : Break) : ReadFault :=
  match stop.name with
  | some fault => .garbled fault
  | none => .malformed stop.fault

mutual

/-- The value of a draft, or the first fault in it. -/
def Draft.value (p : Place) : Draft → Except ReadFault Value
  | .null => .ok .null
  | .bool b => .ok (.bool b)
  | .int i => .ok (.int i)
  | .float x => .ok (.float x)
  | .tooLarge isWhole => .error (.at p (.tooLarge isWhole))
  | .text s => .ok (.text s)
  | .garbled fault => .error (.garbled fault)
  | .broken fault => .error (.malformed fault)
  | .array items stop => do
    let vs ← valuesOfItems p 0 items
    match stop with
    | some fault => throw (.malformed fault)
    | none => return .array vs
  | .object members stop => do
    let ms ← valuesOfMembers p members
    match stop with
    | some stop => throw stop.readFault
    | none => return .object (collect ms)

/-- The values of some items, the first of which has index `i`. -/
def valuesOfItems (p : Place) (i : Nat) : List Draft → Except ReadFault (List Value)
  | [] => .ok []
  | d :: rest => do
    let v ← d.value (p ++ [.item i])
    let vs ← valuesOfItems p (i + 1) rest
    return v :: vs

/-- The values of some members. -/
def valuesOfMembers (p : Place) :
    List (DraftName × Draft) → Except ReadFault (List (String × Value))
  | [] => .ok []
  | (.error fault, _) :: _ => .error (.garbled fault)
  | (.ok name, d) :: rest => do
    let v ← d.value (p ++ [.anyMember])
    let ms ← valuesOfMembers p rest
    return (name, v) :: ms

end

/-- The name of a member of a draft. -/
def DraftName.toMemberName : DraftName → MemberName
  | .ok s => .text s
  | .error fault => .garbled fault

/-- Whether an integer has a form of sixty-four bits, with or without a sign. -/
def fitsWord (i : Int) : Bool := -(twoTo 63 : Int) ≤ i && i < (twoTo 64 : Int)

/-- The layer in front of a draft. -/
def Draft.look : Draft → Shape Draft
  | .null => .null
  | .bool b => .bool b
  | .int i => if fitsWord i then .int i else .wide i
  | .float x => .float x
  | .tooLarge isWhole => .tooLarge isWhole
  | .text s => .text s
  | .garbled fault => .garbled fault
  | .array items stop => .array items stop
  | .object members stop => .object (members.map fun m => (DraftName.toMemberName m.1, m.2)) stop
  | .broken fault => .broken fault

/-- The end of an array or object that is gone past. -/
def skipStop : Option SyntaxFault → Except ReadFault Unit
  | none => .ok ()
  | some fault => .error (.malformed fault.passed)

mutual

/-- Goes past a draft: only the text itself can be at fault, and numbers that are out of range. -/
def Draft.skip : Draft → Except ReadFault Unit
  | .tooLarge isWhole => .error (.at [] (.tooLarge isWhole))
  | .broken fault => .error (.malformed fault.passed)
  | .array items stop => do
    skipItems items
    skipStop stop
  | .object members stop => do
    skipMembers members
    skipStop (stop.map Break.fault)
  | _ => .ok ()

/-- Goes past some items. -/
def skipItems : List Draft → Except ReadFault Unit
  | [] => .ok ()
  | d :: rest => do
    d.skip
    skipItems rest

/-- Goes past some members, whose names need not be texts. -/
def skipMembers : List (DraftName × Draft) → Except ReadFault Unit
  | [] => .ok ()
  | (_, d) :: rest => do
    d.skip
    skipMembers rest

end

/-- A draft as a tag: a text is read, and anything else is gone past. -/
def Draft.tag (d : Draft) : Except ReadFault (String ⊕ Option Kind) :=
  match d with
  | .text s => .ok (.inl s)
  | .garbled fault => .error (.garbled fault)
  | .broken fault =>
    match fault.complaint with
    | .word _ => .error (.malformed fault.passed)
    | _ => .error (.malformed fault)
  | d => d.skip.map fun _ => .inr none

/-- The class of the value that a draft is read as. -/
def Draft.className : Draft → String
  | .null => "NoneType"
  | .bool _ => "bool"
  | .int _ => "int"
  | .float _ => "float"
  | .tooLarge isWhole => if isWhole then "int" else "float"
  | .text _ => "str"
  | .garbled _ => "str"
  | .array _ _ => "list"
  | .object _ _ => "dict"
  | .broken _ => "NoneType"

instance : Readable Draft Value where
  look := Draft.look
  raw := Draft.value
  skip := Draft.skip
  className := Draft.className
  tag := Draft.tag
  countsAhead := false

/-! ## Values -/

/-- The layer in front of a value. -/
def Value.look : Value → Shape Value
  | .null => .null
  | .bool b => .bool b
  | .int i => .int i
  | .float x => .float x
  | .text s => .text s
  | .array items => .array items none
  | .object members => .object (members.map fun m => (.text m.1, m.2)) none

/-- The class of a value. -/
def Value.className : Value → String
  | .null => "NoneType"
  | .bool _ => "bool"
  | .int _ => "int"
  | .float _ => "float"
  | .text _ => "str"
  | .array _ => "list"
  | .object _ => "dict"

/-- A value as a tag. -/
def Value.tag : Value → Except ReadFault (String ⊕ Option Kind)
  | .text s => .ok (.inl s)
  | v => .ok (.inr (some (.named v.className)))

instance : Readable Value Value where
  look := Value.look
  raw := fun _ v => .ok v
  skip := fun _ => .ok ()
  className := Value.className
  tag := Value.tag
  countsAhead := true

end Json

end ScarbCrates

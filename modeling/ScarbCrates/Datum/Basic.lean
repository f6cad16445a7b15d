import ScarbCrates.Decimal.Binary64
import ScarbCrates.Json.Value
import ScarbCrates.Path.Basic
import ScarbCrates.Scales
import ScarbCrates.Schema.Shape

/-!
# Data in memory

The values that a program hands over to be written as JSON, or checks against a schema, without
having read them from a JSON text.  Besides what JSON can hold there are byte strings, tuples and
sets, dictionaries with keys of any kind, paths, and data that is typed already.

* `Datum.eq` — equality of values across the kinds that stand for the same thing.
* `Datum.setOf`, `Datum.dictOf` — sets and dictionaries, without repetitions.
-/

namespace ScarbCrates

/-- The ways of putting items in a row. -/
inductive Gathering
  | list
  | tuple
  | set
deriving DecidableEq, Repr

/-- A value in memory. -/
inductive Datum
  | null
  | bool (b : Bool)
  | int (i : Int)
  | float (x : Binary64)
  | text (t : Text)
  | bytes (isMutable : Bool) (data : List UInt8)
  | sequence (how : Gathering) (items : List Datum)
  | dict (pairs : List (Datum × Datum))
  | path (p : Path)
  | edition (e : Edition)
  | durability (d : Durability)
  /-- Typed data: its class and, in order, the fields that differ from their defaults. -/
  | record (kind : String) (fields : List (String × Datum))
  /-- A value of a class that nothing is known about. -/
  | foreign (kind : String)
deriving Inhabited

namespace Datum

/-- The name of a tag: where two classes of data share a form, the written data has a member of
this name that tells the class.  It is no field of the data. -/
def tagName : String := "type"

/-- A text. -/
def ofString (s : String) : Datum := .text (Text.ofString s)

/-- A list. -/
def ofList (items : List Datum) : Datum := .sequence .list items

/-- A dictionary with texts as keys. -/
def ofMembers (members : List (String × Datum)) : Datum :=
  .dict (members.map fun m => (ofString m.1, m.2))

/-- A text or nothing. -/
def ofOption (s : Option String) : Datum :=
  match s with
  | some s => ofString s
  | none => .null

mutual

/-- A JSON value as data. -/
def ofJson : Json.Value → Datum
  | .null => .null
  | .bool b => .bool b
  | .int i => .int i
  | .float x => .float x
  | .text s => ofString s
  | .array items => .sequence .list (ofJsonItems items)
  | .object members => .dict (ofJsonMembers members)

/-- JSON values as data. -/
def ofJsonItems : List Json.Value → List Datum
  | [] => []
  | v :: rest => ofJson v :: ofJsonItems rest

/-- Members of a JSON object as data. -/
def ofJsonMembers : List (String × Json.Value) → List (Datum × Datum)
  | [] => []
  | (name, v) :: rest => (ofString name, ofJson v) :: ofJsonMembers rest

end

/-- The class of a value, as messages name it. -/
def className : Datum → String
  | .null => "NoneType"
  | .bool _ => "bool"
  | .int _ => "int"
  | .float _ => "float"
  | .text _ => "str"
  | .bytes false _ => "bytes"
  | .bytes true _ => "bytearray"
  | .sequence .list _ => "list"
  | .sequence .tuple _ => "tuple"
  | .sequence .set _ => "set"
  | .dict _ => "dict"
  | .path _ => "PosixPath"
  | .edition _ => "Edition"
  | .durability _ => "Durability"
  | .record kind _ => kind
  | .foreign kind => kind

/-- The text of a value that is one. -/
def text? : Datum → Option Text
  | .text t => some t
  | .edition e => some (Text.ofString e.name)
  | _ => none

/-! ## Equality -/

/-- A number: truth values and levels are numbers too. -/
inductive Number
  | whole (i : Int)
  | real (x : Binary64)

/-- The number that a value is. -/
def number? : Datum → Option Number
  | .bool b => some (.whole (if b then 1 else 0))
  | .int i => some (.whole i)
  | .float x => some (.real x)
  | .durability d => some (.whole d.level)
  | _ => none

/-- Whether an integer and a floating-point number are the same. -/
def sameNumber : Number → Number → Bool
  | .whole i, .whole j => i == j
  | .real x, .real y => x.eqValue y
  | .whole i, .real x => x.toInt? == some i
  | .real x, .whole i => x.toInt? == some i

mutual

/-- **Equality of values.**  Numbers are compared as numbers, an edition with the text of its
name, byte strings with each other; a list is equal to no tuple. -/
def eq : Datum → Datum → Bool
  | .sequence how items, .sequence how' items' =>
    how == how' && (if how = .set then subset items items' && items.length == items'.length
      else eqItems items items')
  | .dict pairs, .dict pairs' => pairs.length == pairs'.length && eqPairs pairs pairs'
  | .record kind fields, .record kind' fields' => kind == kind' && eqFields fields fields'
  | .bytes _ data, .bytes _ data' => data == data'
  | .path p, .path q => p == q
  | .null, .null => true
  | .foreign kind, .foreign kind' => kind == kind'
  | a, b =>
    match number? a, number? b, text? a, text? b with
    | some m, some n, _, _ => sameNumber m n
    | _, _, some s, some t => s == t
    | _, _, _, _ => false

/-- Equality item by item. -/
def eqItems : List Datum → List Datum → Bool
  | [], [] => true
  | a :: as, b :: bs => eq a b && eqItems as bs
  | _, _ => false

/-- Whether every item is equal to one of another list. -/
def subset : List Datum → List Datum → Bool
  | [], _ => true
  | a :: as, bs => bs.any (fun b => eq a b) && subset as bs

/-- Whether every pair has an equal one in another list. -/
def eqPairs : List (Datum × Datum) → List (Datum × Datum) → Bool
  | [], _ => true
  | (k, v) :: rest, pairs => pairs.any (fun p => eq k p.1 && eq v p.2) && eqPairs rest pairs

/-- Equality field by field. -/
def eqFields : List (String × Datum) → List (String × Datum) → Bool
  | [], [] => true
  | (n, a) :: as, (m, b) :: bs => n == m && eq a b && eqFields as bs
  | _, _ => false

end

/-- Items without repetitions; the first of equal ones stays. -/
def distinct (items : List Datum) : List Datum :=
  items.foldl (fun seen a => if seen.any (eq a) then seen else seen ++ [a]) []

/-- A set of some items. -/
def setOf (items : List Datum) : Datum := .sequence .set (distinct items)

/-- Pairs with one more: a key that is there already keeps its place and takes the new value. -/
def putPair (pairs : List (Datum × Datum)) (key v : Datum) : List (Datum × Datum) :=
  match pairs with
  | [] => [(key, v)]
  | (k, old) :: rest => if eq k key then (k, v) :: rest else (k, old) :: putPair rest key v

/-- A dictionary of some pairs. -/
def dictOf (pairs : List (Datum × Datum)) : Datum :=
  .dict (pairs.foldl (fun ps p => putPair ps p.1 p.2) [])

/-! ## As a source of typed data -/

/-- The name of a member that a dictionary's key stands for. -/
def nameOf : Datum → MemberName
  | .text t => .text (Text.shown t)
  | .edition e => .symbol e.name
  | .null => .other .null
  | .bool _ => .other .bool
  | .int _ => .other .int
  | .durability _ => .other .int
  | .float _ => .other .float
  | .sequence _ _ => .other .array
  | .dict _ => .other .object
  | d => .other (.named d.className)

/-- The layer in front of a value. -/
def look : Datum → Shape Datum
  | .null => .null
  | .bool b => .bool b
  | .int i => .int i
  | .float x => .float x
  | .text t => .text (Text.shown t)
  | .edition e => .text e.name
  | .durability d => .int d.level
  | .sequence .set items => .set items
  | .sequence _ items => .array items none
  | .dict pairs => .object (pairs.map fun p => (nameOf p.1, p.2)) none
  | .path p => .path p
  | .record kind fields => .record kind fields
  | .bytes _ _ => .other (.named "bytes")
  | .foreign kind => .other (.named kind)

/-- A value as a tag: a name in an enumeration is none. -/
def tag : Datum → Except ReadFault (String ⊕ Option Kind)
  | .text t => .ok (.inl (Text.shown t))
  | d => .ok (.inr (some (.named d.className)))

instance : Readable Datum Datum where
  look := look
  raw := fun _ d => .ok d
  skip := fun _ => .ok ()
  className := className
  tag := tag
  countsAhead := true

end Datum

end ScarbCrates

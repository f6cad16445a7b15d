import ScarbCrates.Assoc
import ScarbCrates.Decimal.Binary64

/-!
# JSON values

The data that a JSON document holds.  Members of an object are kept in the order in which they
were read; `Value.sorted` forgets that order at every depth.
-/

namespace ScarbCrates

namespace Json

/-- A JSON value.  Integers have any size and are told apart from floating-point numbers. -/
inductive Value
  | null
  | bool (b : Bool)
  | int (i : Int)
  | float (x : Binary64)
  | text (s : String)
  | array (items : List Value)
  | object (members : List (String × Value))
deriving Repr, Inhabited, BEq

/-- The members of an object with the given ones in order; the last of each name counts. -/
def collect {α : Type} (members : List (String × α)) : List (String × α) := Assoc.ofList members

/-- Members in the order of their names. -/
def sortMembers {α : Type} (members : List (String × α)) : List (String × α) :=
  members.mergeSort fun a b => !decide (b.1 < a.1)

mutual

/-- A value with the members of every object in the order of their names. -/
def Value.sorted : Value → Value
  | .array items => .array (sortedItems items)
  | .object members => .object (sortMembers (sortedMembers members))
  | v => v

/-- `Value.sorted` for the items of an array. -/
def sortedItems : List Value → List Value
  | [] => []
  | v :: rest => v.sorted :: sortedItems rest

/-- `Value.sorted` for the values of members, which stay in their order. -/
def sortedMembers : List (String × Value) → List (String × Value)
  | [] => []
  | (name, v) :: rest => (name, v.sorted) :: sortedMembers rest

end

namespace Value

/-- The member of an object with a name. -/
def member? (v : Value) (name : String) : Option Value :=
  match v with
  | .object members => Assoc.get? members name
  | _ => none

end Value

end Json

end ScarbCrates

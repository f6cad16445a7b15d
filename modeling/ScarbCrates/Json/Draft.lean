import ScarbCrates.Json.Syntax
import ScarbCrates.Json.Value
import ScarbCrates.Text.Letter

/-!
# Drafts

What a JSON text holds as far as it can be read.  A draft is a value in which a fault of the text
stands at the place where it is met: a reader that knows what it expects goes through a draft from
left to right and comes upon wrong kinds of values and faults of the text in the order in which
they stand.

* A part that cannot be read at all is `broken`.
* An array or object that does not go on as it should has a `stop` after its last part.
* A string that is no UTF-8 text is a fault only for a reader who wants its value.
-/

namespace ScarbCrates

namespace Json

/-- The name of a member, or why it is no text. -/
abbrev DraftName := Except Utf8.Fault String

/-- Where the members of an object do not go on: the fault, and why the name that has been read
just before it is no text, if it is none. -/
structure Break where
  fault : SyntaxFault
  name : Option Utf8.Fault

/-- A JSON text as far as it can be read. -/
inductive Draft
  | null
  | bool (b : Bool)
  | int (i : Int)
  | float (x : Binary64)
  | tooLarge (isWhole : Bool)
  | text (s : String)
  | garbled (fault : Utf8.Fault)
  | array (items : List Draft) (stop : Option SyntaxFault)
  | object (members : List (DraftName × Draft)) (stop : Option Break)
  | broken (fault : SyntaxFault)
deriving Inhabited

/-- A whole text: a draft and what follows it. -/
structure Document where
  root : Draft
  trailing : Option SyntaxFault

end Json

end ScarbCrates

import ScarbCrates.Datum.Basic
import ScarbCrates.Decimal.Shortest

/-!
# Values in messages

How a message shows a value: texts between quotes, lists in brackets, and words for null and the
truth values.  A text that is a message itself is shown as it is.
-/

namespace ScarbCrates

namespace Datum

/-- In messages, numbers are positional from `0.0001` to below `10 ^ 16`; elsewhere the exponent
has a sign and at least two digits. -/
def messageLayout : Decimal.Layout := ⟨-4, 16, true, 2⟩

/-- A floating-point number in a message. -/
def floatLiteral (x : Binary64) : String :=
  if x.isNaN then "nan"
  else if x.isInfinite then (if x.isNegative then "-inf" else "inf")
  else String.ofList (messageLayout.number x)

/-- Texts with commas between them. -/
def commaSeparated (texts : List String) : String := String.intercalate ", " texts

mutual

/-- A value in a message. -/
def literal : Datum → String
  | .null => "None"
  | .bool true => "True"
  | .bool false => "False"
  | .int i => toString i
  | .float x => floatLiteral x
  | .text t => Text.quoted t
  | .bytes false data => Text.quotedBytes false data
  | .bytes true data => "bytearray(" ++ Text.quotedBytes true data ++ ")"
  | .sequence .list items => "[" ++ commaSeparated (literals items) ++ "]"
  | .sequence .tuple [a] => "(" ++ literal a ++ ",)"
  | .sequence .tuple items => "(" ++ commaSeparated (literals items) ++ ")"
  | .sequence .set [] => "set()"
  | .sequence .set items => "\x7b" ++ commaSeparated (literals items) ++ "\x7d"
  | .dict pairs => "\x7b" ++ commaSeparated (pairLiterals pairs) ++ "\x7d"
  | .path p => p.described
  | .edition e => "<Edition.V" ++ e.name ++ ": " ++ Text.quote e.name ++ ">"
  | .durability d => "<Durability." ++ d.name ++ s!": {d.level}>"
  | .record kind fields => kind ++ "(" ++ commaSeparated (fieldLiterals fields) ++ ")"
  | .foreign kind => "<" ++ kind ++ ">"

/-- Values in a message. -/
def literals : List Datum → List String
  | [] => []
  | d :: rest => literal d :: literals rest

/-- Keys with their values in a message. -/
def pairLiterals : List (Datum × Datum) → List String
  | [] => []
  | (k, v) :: rest => (literal k ++ ": " ++ literal v) :: pairLiterals rest

/-- Names with their values in a message, without a tag. -/
def fieldLiterals : List (String × Datum) → List String
  | [] => []
  | (name, v) :: rest =>
    if name = tagName then fieldLiterals rest
    else (name ++ "=" ++ literal v) :: fieldLiterals rest

end

/-- A value as a message of its own: a text stands for itself. -/
def spoken (d : Datum) : String :=
  match text? d with
  | some t => Text.shown t
  | none =>
    match d with
    | .path p => p.shown
    | d => literal d

end Datum

end ScarbCrates

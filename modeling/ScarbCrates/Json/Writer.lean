import ScarbCrates.Json.Value
import ScarbCrates.Decimal.Shortest
import ScarbCrates.Text.Letter

/-!
# Writing JSON

A value has one compact text and one indented text.  Only what JSON demands is escaped; other
characters, ASCII or not, stand for themselves.  A number that is not finite has no JSON form and
is written as `null`.
-/

namespace ScarbCrates

namespace Json

/-- Floating-point numbers are positional from `0.00001` to below `10 ^ 16`; elsewhere the
exponent is written without a plus sign and without padding. -/
def numberLayout : Decimal.Layout := ⟨-5, 16, false, 1⟩

/-! ## Scalars -/

/-- One character of a string. -/
def escaped (c : Char) : List Char :=
  if c = '"' then ['\\', '"']
  else if c = '\\' then ['\\', '\\']
  else if c = '\n' then ['\\', 'n']
  else if c = '\r' then ['\\', 'r']
  else if c = '\t' then ['\\', 't']
  else if c.toNat = 8 then ['\\', 'b']
  else if c.toNat = 12 then ['\\', 'f']
  else if c.toNat < 32 then '\\' :: 'u' :: Text.hexPadded 4 c.toNat
  else [c]

/-- A string with its quotes. -/
def stringChars (s : String) : List Char := '"' :: s.toList.flatMap escaped ++ ['"']

/-- The digits of an integer. -/
def intChars : Int → List Char
  | .ofNat n => Nat.toDigits 10 n
  | .negSucc n => '-' :: Nat.toDigits 10 (n + 1)

/-- A floating-point number. -/
def floatChars (x : Binary64) : List Char :=
  if x.isFinite then numberLayout.number x else "null".toList

/-! ## Compact text -/

mutual

/-- The compact text of a value. -/
def Value.compact : Value → List Char
  | .null => "null".toList
  | .bool true => "true".toList
  | .bool false => "false".toList
  | .int i => intChars i
  | .float x => floatChars x
  | .text s => stringChars s
  | .array [] => ['[', ']']
  | .array (v :: rest) => '[' :: v.compact ++ compactItems rest ++ [']']
  | .object [] => ['\x7b', '\x7d']
  | .object ((name, v) :: rest) =>
    '\x7b' :: stringChars name ++ ':' :: v.compact ++ compactMembers rest ++ ['\x7d']

/-- The items after the first, each after a comma. -/
def compactItems : List Value → List Char
  | [] => []
  | v :: rest => ',' :: v.compact ++ compactItems rest

/-- The members after the first, each after a comma. -/
def compactMembers : List (String × Value) → List Char
  | [] => []
  | (name, v) :: rest => ',' :: stringChars name ++ ':' :: v.compact ++ compactMembers rest

end

/-! ## Indented text -/

/-- A new line with `depth` levels of two spaces. -/
def newLine (depth : Nat) : List Char := '\n' :: List.replicate (2 * depth) ' '

mutual

/-- The indented text of a value that stands `depth` levels deep. -/
def Value.indented (depth : Nat) : Value → List Char
  | .array [] => ['[', ']']
  | .array (v :: rest) =>
    '[' :: newLine (depth + 1) ++ v.indented (depth + 1) ++ indentedItems (depth + 1) rest
      ++ newLine depth ++ [']']
  | .object [] => ['\x7b', '\x7d']
  | .object ((name, v) :: rest) =>
    '\x7b' :: newLine (depth + 1) ++ stringChars name ++ ':' :: ' ' :: v.indented (depth + 1)
      ++ indentedMembers (depth + 1) rest ++ newLine depth ++ ['\x7d']
  | v => v.compact

/-- The items after the first, each on a line of its own after a comma. -/
def indentedItems (depth : Nat) : List Value → List Char
  | [] => []
  | v :: rest => ',' :: newLine depth ++ v.indented depth ++ indentedItems depth rest

/-- The members after the first, each on a line of its own after a comma. -/
def indentedMembers (depth : Nat) : List (String × Value) → List Char
  | [] => []
  | (name, v) :: rest =>
    ',' :: newLine depth ++ stringChars name ++ ':' :: ' ' :: v.indented depth
      ++ indentedMembers depth rest

end

/-- **The text of a value,** on one line or indented. -/
def Value.render (v : Value) (pretty : Bool) : String :=
  String.ofList (if pretty then v.indented 0 else v.compact)

end Json

end ScarbCrates

import ScarbCrates.Text.Letter
import ScarbCrates.Text.Printable

/-!
# Quoted text

How a message quotes a text: between single quotes, or between double quotes when the text holds a
single quote and no double quote.  The backslash and the quote in use are escaped, and so is every
character that is not printable.
-/

namespace ScarbCrates

namespace Text

/-- The quote that a text is put between. -/
def quoteFor (t : Text) : Char :=
  if t.any (·.is '\'') && !t.any (·.is '"') then '"' else '\''

/-- A character that is not printable, by its number: two, four or eight digits. -/
def numericEscape (c : Char) : List Char :=
  let n := c.toNat
  if n < 0x100 then '\\' :: 'x' :: hexPadded 2 n
  else if n < 0x10000 then '\\' :: 'u' :: hexPadded 4 n
  else '\\' :: 'U' :: hexPadded 8 n

/-- One letter between quotes `quote`. -/
def quotedLetter (quote : Char) : Letter → List Char
  | .stray b => strayShown b
  | .char c =>
    if c = quote || c = '\\' then ['\\', c]
    else if c = '\n' then ['\\', 'n']
    else if c = '\r' then ['\\', 'r']
    else if c = '\t' then ['\\', 't']
    else if isPrintable c then [c]
    else numericEscape c

/-- A text between quotes. -/
def quoted (t : Text) : String :=
  let quote := quoteFor t
  String.ofList (quote :: t.flatMap (quotedLetter quote) ++ [quote])

/-- A string between quotes. -/
def quote (s : String) : String := quoted (ofString s)

/-- One byte between quotes: only printable ASCII characters stand for themselves, and of these
`mark` and the backslash are escaped. -/
def quotedByte (mark : Char) (b : UInt8) : List Char :=
  let c := Char.ofNat b.toNat
  if c = mark || c = '\\' then ['\\', c]
  else if c = '\n' then ['\\', 'n']
  else if c = '\r' then ['\\', 'r']
  else if c = '\t' then ['\\', 't']
  else if 0x20 ≤ b.toNat && b.toNat < 0x7F then [c]
  else numericEscape c

/-- Bytes between quotes after the letter `b`.  In bytes that can change a single quote is escaped
even where double quotes stand around it. -/
def quotedBytes (isMutable : Bool) (bytes : List UInt8) : String :=
  let quote := quoteFor (ofChars (bytes.map fun b => Char.ofNat b.toNat))
  let mark := if isMutable then '\'' else quote
  String.ofList ('b' :: quote :: bytes.flatMap (quotedByte mark) ++ [quote])

end Text

end ScarbCrates

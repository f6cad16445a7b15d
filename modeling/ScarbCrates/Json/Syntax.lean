/-!
# Faults of JSON text

What can be wrong with the text itself, before any question of what it should hold.

* `SyntaxFault` — what is wrong, and where it is noticed by a reader who wants the value.
* `SyntaxFault.passed` — the same fault as it is noticed by a reader who only goes past the value.
-/

namespace ScarbCrates

namespace Json

/-- What is wrong with a text. -/
inductive Complaint
  | truncated
  | character
  /-- Of a word that begins like a value's, all letters but the first, which are this many, are
  looked at together. -/
  | word (others : Nat)
  | number
  | escape
  | escapedCharacter
  | unicodeEscape
  | surrogatePair
  | surrogatePairEnd
  | hexEscapeEnd
  | itemSeparator
  | itemAfterComma
  | memberSeparator
  | memberAfterComma
  | memberName
  | openingQuote
  | colon
  | trailing
deriving DecidableEq, Repr

/-- A fault of a text: what is wrong, and at which byte it is noticed. -/
structure SyntaxFault where
  complaint : Complaint
  offset : Nat
deriving DecidableEq, Repr

/-- What is wrong, in words. -/
def Complaint.message : Complaint → String
  | .truncated => "truncated"
  | .character => "invalid character"
  | .word _ => "invalid character"
  | .number => "invalid number"
  | .escape => "invalid escape character in string"
  | .escapedCharacter => "invalid escaped character"
  | .unicodeEscape => "invalid character in unicode escape"
  | .surrogatePair => "invalid utf-16 surrogate pair"
  | .surrogatePairEnd => "unexpected end of escaped utf-16 surrogate pair"
  | .hexEscapeEnd => "unexpected end of hex escape"
  | .itemSeparator => "expected ',' or ']'"
  | .itemAfterComma => "trailing comma in array"
  | .memberSeparator => "expected ',' or '\x7d'"
  | .memberAfterComma => "trailing comma in object"
  | .memberName => "object keys must be strings"
  | .openingQuote => "expected '\"'"
  | .colon => "expected ':'"
  | .trailing => "trailing characters"

/-- A fault in words.  Where the text ends too early there is no byte to point at. -/
def SyntaxFault.message (f : SyntaxFault) : String :=
  match f.complaint with
  | .truncated => "Input data was truncated"
  | complaint => "JSON is malformed: " ++ complaint.message ++ s!" (byte {f.offset})"

/-- **A fault as a reader notices it who only goes past the value.**  Such a reader stops at an
escape before it has taken in the escaped letter, and at a word after its first letter. -/
def SyntaxFault.passed (f : SyntaxFault) : SyntaxFault :=
  match f.complaint with
  | .escape => ⟨.escapedCharacter, f.offset - 1⟩
  | .word others => ⟨.character, f.offset - others⟩
  | .surrogatePairEnd => ⟨.hexEscapeEnd, f.offset⟩
  | .memberName => ⟨.openingQuote, f.offset⟩
  | _ => f

end Json

end ScarbCrates

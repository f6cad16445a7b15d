import ScarbCrates.Json.Draft

/-!
# Reading JSON

From letters to a draft.  Every function takes a cursor, which is the rest of the text with the
number of bytes before it, and goes forward only.

* `readString`, `readNumber` — the lexical forms.
* `readValue` — a value with everything in it.
* `Document.ofText` — a whole text.
-/

namespace ScarbCrates

namespace Json

/-- The rest of a text and the number of bytes before it. -/
structure Cursor where
  rest : Text
  offset : Nat

/-! ## Letters -/

/-- Space, tab, line feed and carriage return may stand between the parts of a text. -/
def isSpace (c : Char) : Bool := c = ' ' || c = '\t' || c = '\n' || c = '\r'

/-- The number of bytes of some letters. -/
def byteCount (t : Text) : Nat := (Text.encode t).length

/-- Goes past white space. -/
def skipSpace : Text → Nat → Cursor
  | .char c :: rest, offset =>
    if isSpace c then skipSpace rest (offset + 1) else ⟨.char c :: rest, offset⟩
  | rest, offset => ⟨rest, offset⟩

/-- The decimal digits in front, and what follows them. -/
def spanDigits : Text → List Char × Text
  | .char c :: rest =>
    if c.isDigit then
      let (ds, after) := spanDigits rest
      (c :: ds, after)
    else ([], .char c :: rest)
  | rest => ([], rest)

/-- The number that decimal digits write. -/
def natOfDigits (ds : List Char) : Nat := ds.foldl (fun n c => 10 * n + (c.toNat - 48)) 0

/-! ## Strings -/

/-- The value of a hexadecimal digit in either case. -/
def hexValue? (c : Char) : Option Nat :=
  let n := c.toNat
  if 48 ≤ n && n ≤ 57 then some (n - 48)
  else if 97 ≤ n && n ≤ 102 then some (n - 87)
  else if 65 ≤ n && n ≤ 70 then some (n - 55)
  else none

/-- Hexadecimal digits: `count` of them after those that make up `value`. -/
def readHex : (count : Nat) → (value : Nat) → Text → (offset : Nat) → Except SyntaxFault Nat
  | 0, value, _, _ => .ok value
  | _ + 1, _, [], offset => .error ⟨.truncated, offset⟩
  | count + 1, value, .char c :: rest, offset =>
    match hexValue? c with
    | some digit => readHex count (value * 16 + digit) rest (offset + 1)
    | none => .error ⟨.unicodeEscape, offset + 1⟩
  | _ + 1, _, .stray _ :: _, offset => .error ⟨.unicodeEscape, offset + 1⟩

/-- The first half of a surrogate pair. -/
def isHighSurrogate (n : Nat) : Bool := 0xD800 ≤ n && n ≤ 0xDBFF

/-- The second half of a surrogate pair. -/
def isLowSurrogate (n : Nat) : Bool := 0xDC00 ≤ n && n ≤ 0xDFFF

/-- The character that a pair of surrogates writes. -/
def pairedChar (high low : Nat) : Char :=
  Char.ofNat (0x10000 + (high - 0xD800) * 1024 + (low - 0xDC00))

/-- The second half of a pair, with its own escape. -/
def readLowSurrogate (high : Nat) (rest : Text) (offset : Nat) : Except SyntaxFault Char :=
  if byteCount (rest.take 6) < 6 then .error ⟨.truncated, offset⟩
  else match rest with
    | .char '\\' :: .char 'u' :: rest =>
      match readHex 4 0 rest (offset + 2) with
      | .error f => .error f
      | .ok low =>
        if isLowSurrogate low then .ok (pairedChar high low)
        else .error ⟨.surrogatePair, offset + 6⟩
    | _ => .error ⟨.surrogatePairEnd, offset⟩

/-- A character escaped by number, after `\u`, and the number of letters that write it. -/
def readUnicodeEscape (rest : Text) (offset : Nat) : Except SyntaxFault (Char × Nat) :=
  if byteCount (rest.take 4) < 4 then .error ⟨.truncated, offset⟩
  else match readHex 4 0 rest offset with
  | .error f => .error f
  | .ok n =>
    if isLowSurrogate n then .error ⟨.surrogatePair, offset + 4⟩
    else if isHighSurrogate n then
      (readLowSurrogate n (rest.drop 4) (offset + 4)).map fun c => (c, 10)
    else .ok (Char.ofNat n, 4)

/-- The character that a backslash and one letter write. -/
def shortEscape? (c : Char) : Option Char :=
  match c with
  | '"' => some '"'
  | '\\' => some '\\'
  | '/' => some '/'
  | 'b' => some '\x08'
  | 'f' => some '\x0c'
  | 'n' => some '\n'
  | 'r' => some '\r'
  | 't' => some '\t'
  | _ => none

/-- An escaped character, after the backslash, and the number of letters that write it. -/
def readEscape (rest : Text) (offset : Nat) : Except SyntaxFault (Char × Nat) :=
  match rest with
  | [] => .error ⟨.truncated, offset⟩
  | .char 'u' :: rest => (readUnicodeEscape rest (offset + 1)).map fun r => (r.1, r.2 + 1)
  | .char c :: _ =>
    match shortEscape? c with
    | some e => .ok (e, 1)
    | none => .error ⟨.escape, offset + 1⟩
  | .stray _ :: _ => .error ⟨.escape, offset + 1⟩

/-- The letters of a string up to its closing quote.  `skip` letters belong to an escape that has
been read; `done` holds the letters so far, last first. -/
def readLetters : (skip : Nat) → (done : Text) → Text → (offset : Nat) →
    Except SyntaxFault (Text × Cursor)
  | _, _, [], offset => .error ⟨.truncated, offset⟩
  | skip + 1, done, _ :: rest, offset => readLetters skip done rest offset
  | 0, done, .char c :: rest, offset =>
    if c = '"' then .ok (done.reverse, ⟨rest, offset + 1⟩)
    else if c = '\\' then
      match readEscape rest (offset + 1) with
      | .error f => .error f
      | .ok (e, width) => readLetters width (.char e :: done) rest (offset + 1 + width)
    else if c.toNat < 32 then .error ⟨.character, offset⟩
    else readLetters 0 (.char c :: done) rest (offset + c.utf8Size)
  | 0, done, .stray b :: rest, offset => readLetters 0 (.stray b :: done) rest (offset + 1)

/-- The string that letters write; a stray byte makes them no text. -/
def stringOf (t : Text) : Except Utf8.Fault String :=
  match Utf8.firstFault (Text.encode t) with
  | some fault => .error fault
  | none => .ok (String.ofList (Text.chars t))

/-! ## Numbers -/

/-- An exponent, after the letter `e`. -/
def readExponent (rest : Text) (offset : Nat) : Except SyntaxFault (Int × Cursor) :=
  let (negative, rest, offset) :=
    match rest with
    | .char '-' :: rest => (true, rest, offset + 1)
    | .char '+' :: rest => (false, rest, offset + 1)
    | _ => (false, rest, offset)
  match spanDigits rest with
  | ([], _) => .error ⟨.number, offset⟩
  | (ds, after) =>
    let e : Int := natOfDigits ds
    .ok (if negative then -e else e, ⟨after, offset + ds.length⟩)

/-- The digits after a decimal point; none where there is no point. -/
def readFraction (c : Cursor) : Except SyntaxFault (Option (List Char) × Cursor) :=
  match c.rest with
  | .char '.' :: rest =>
    match spanDigits rest with
    | ([], _) => .error ⟨.number, c.offset + 1⟩
    | (ds, after) => .ok (some ds, ⟨after, c.offset + 1 + ds.length⟩)
  | _ => .ok (none, c)

/-- The exponent, if there is one. -/
def readExponent? (c : Cursor) : Except SyntaxFault (Option Int × Cursor) :=
  match c.rest with
  | .char 'e' :: rest => (readExponent rest (c.offset + 1)).map fun r => (some r.1, r.2)
  | .char 'E' :: rest => (readExponent rest (c.offset + 1)).map fun r => (some r.1, r.2)
  | _ => .ok (none, c)

/-- The digits before the point: one zero, or digits of which the first is not zero. -/
def readWhole (rest : Text) (offset : Nat) : Except SyntaxFault (List Char × Cursor) :=
  match spanDigits rest with
  | ([], []) => .error ⟨.number, offset⟩
  | ([], _ :: _) => .error ⟨.character, offset⟩
  | (['0'], after) => .ok (['0'], ⟨after, offset + 1⟩)
  | ('0' :: _, _) => .error ⟨.number, offset + 1⟩
  | (ds, after) => .ok (ds, ⟨after, offset + ds.length⟩)

/-- The most letters that an integer may have, its sign among them. -/
def longestWhole : Nat := 4300

/-- The number that digits, fraction and exponent write: an integer where there are digits
only. -/
def numberOf (negative : Bool) (whole : List Char) (fraction : Option (List Char))
    (exponent : Option Int) : Draft :=
  match fraction, exponent with
  | none, none =>
    let n : Int := natOfDigits whole
    let length := whole.length + if negative then 1 else 0
    if longestWhole < length then .tooLarge true else .int (if negative then -n else n)
  | _, _ =>
    let after := fraction.getD []
    let e := exponent.getD 0 - after.length
    match Binary64.ofDecimal? negative (natOfDigits (whole ++ after)) e with
    | some x => .float x
    | none => .tooLarge false

/-- A number after its sign. -/
def readUnsigned (negative : Bool) (rest : Text) (offset : Nat) :
    Except SyntaxFault (Draft × Cursor) := do
  let (whole, c) ← readWhole rest offset
  let (fraction, c) ← readFraction c
  let (exponent, c) ← readExponent? c
  return (numberOf negative whole fraction exponent, c)

/-- A number.  A text that begins as no value does is refused at its first byte. -/
def readNumber (rest : Text) (offset : Nat) : Except SyntaxFault (Draft × Cursor) :=
  match rest with
  | .char '-' :: after => readUnsigned true after (offset + 1)
  | .char c :: _ =>
    if c.isDigit then readUnsigned false rest offset else .error ⟨.character, offset⟩
  | _ => .error ⟨.character, offset⟩

/-! ## Values -/

/-- What reading a value gives: the draft, and where to go on unless the text ends in it. -/
abbrev Reading := Draft × Option Cursor

/-- A fault where a value should stand. -/
def broken (f : SyntaxFault) : Reading := (.broken f, none)

/-- A word, whose first letter has been seen; its other letters are `tail`. -/
def readWord (tail : List Char) (d : Draft) (rest : Text) (offset : Nat) : Reading :=
  let n := tail.length
  if byteCount (rest.take n) < n then broken ⟨.truncated, offset⟩
  else if rest.take n = Text.ofChars tail then (d, some ⟨rest.drop n, offset + n⟩)
  else broken ⟨.word n, offset + n⟩

/-- A string after its opening quote. -/
def readString (rest : Text) (offset : Nat) : Except SyntaxFault (DraftName × Cursor) :=
  (readLetters 0 [] rest offset).map fun r => (stringOf r.1, r.2)

/-- A string as a value. -/
def readTextValue (rest : Text) (offset : Nat) : Reading :=
  match readString rest offset with
  | .error f => broken f
  | .ok (.ok s, c) => (.text s, some c)
  | .ok (.error fault, c) => (.garbled fault, some c)

/-- The fault of a name that is no text. -/
def DraftName.fault? : DraftName → Option Utf8.Fault
  | .ok _ => none
  | .error fault => some fault

/-- The name of a member and the colon after it. -/
def readName (rest : Text) (offset : Nat) : Except Break (DraftName × Cursor) :=
  match readString rest offset with
  | .error f => .error ⟨f, none⟩
  | .ok (name, c) =>
    let c := skipSpace c.rest c.offset
    match c.rest with
    | .char ':' :: rest => .ok (name, ⟨rest, c.offset + 1⟩)
    | [] => .error ⟨⟨.truncated, c.offset⟩, DraftName.fault? name⟩
    | _ => .error ⟨⟨.colon, c.offset⟩, DraftName.fault? name⟩

/-- An object that breaks off where a fault of its own stands. -/
def brokenObject (members : List (DraftName × Draft)) (complaint : Complaint) (offset : Nat) :
    Reading :=
  (.object members (some ⟨⟨complaint, offset⟩, none⟩), none)

mutual

/-- A value.  A part of the text costs at most three units of `fuel`, one for each function that
it passes through, so three times the length of the text is enough. -/
def readValue : (fuel : Nat) → Cursor → Reading
  | 0, c => broken ⟨.truncated, c.offset⟩
  | fuel + 1, c =>
    let c := skipSpace c.rest c.offset
    match c.rest with
    | [] => broken ⟨.truncated, c.offset⟩
    | .char 'n' :: rest => readWord ['u', 'l', 'l'] .null rest (c.offset + 1)
    | .char 't' :: rest => readWord ['r', 'u', 'e'] (.bool true) rest (c.offset + 1)
    | .char 'f' :: rest => readWord ['a', 'l', 's', 'e'] (.bool false) rest (c.offset + 1)
    | .char '"' :: rest => readTextValue rest (c.offset + 1)
    | .char '[' :: rest => readItems fuel [] ⟨rest, c.offset + 1⟩
    | .char '\x7b' :: rest => readMembers fuel [] ⟨rest, c.offset + 1⟩
    | rest =>
      match readNumber rest c.offset with
      | .error f => broken f
      | .ok (d, c) => (d, some c)

/-- The items of an array after those in `done`, which are in reverse. -/
def readItems : (fuel : Nat) → (done : List Draft) → Cursor → Reading
  | 0, done, c => (.array done.reverse (some ⟨.truncated, c.offset⟩), none)
  | fuel + 1, done, c =>
    let c := skipSpace c.rest c.offset
    match c.rest with
    | [] => (.array done.reverse (some ⟨.truncated, c.offset⟩), none)
    | .char ']' :: rest => (.array done.reverse none, some ⟨rest, c.offset + 1⟩)
    | .char ',' :: rest =>
      if done.isEmpty then readItem fuel done c
      else
        let c := skipSpace rest (c.offset + 1)
        match c.rest with
        | [] => (.array done.reverse (some ⟨.truncated, c.offset⟩), none)
        | .char ']' :: _ => (.array done.reverse (some ⟨.itemAfterComma, c.offset⟩), none)
        | _ => readItem fuel done c
    | _ =>
      if done.isEmpty then readItem fuel done c
      else (.array done.reverse (some ⟨.itemSeparator, c.offset⟩), none)

/-- One item and those after it. -/
def readItem : (fuel : Nat) → (done : List Draft) → Cursor → Reading
  | 0, done, c => (.array done.reverse (some ⟨.truncated, c.offset⟩), none)
  | fuel + 1, done, c =>
    match readValue fuel c with
    | (d, some c) => readItems fuel (d :: done) c
    | (d, none) => (.array (d :: done).reverse none, none)

/-- The members of an object after those in `done`, which are in reverse. -/
def readMembers : (fuel : Nat) → (done : List (DraftName × Draft)) → Cursor → Reading
  | 0, done, c => brokenObject done.reverse .truncated c.offset
  | fuel + 1, done, c =>
    let c := skipSpace c.rest c.offset
    match c.rest with
    | [] => brokenObject done.reverse .truncated c.offset
    | .char '\x7d' :: rest => (.object done.reverse none, some ⟨rest, c.offset + 1⟩)
    | .char ',' :: rest =>
      if done.isEmpty then brokenObject [] .memberName c.offset
      else
        let c := skipSpace rest (c.offset + 1)
        match c.rest with
        | [] => brokenObject done.reverse .truncated c.offset
        | .char '\x7d' :: _ => brokenObject done.reverse .memberAfterComma c.offset
        | _ => readMember fuel done c
    | _ =>
      if done.isEmpty then readMember fuel done c
      else brokenObject done.reverse .memberSeparator c.offset

/-- One member and those after it. -/
def readMember : (fuel : Nat) → (done : List (DraftName × Draft)) → Cursor → Reading
  | 0, done, c => brokenObject done.reverse .truncated c.offset
  | fuel + 1, done, c =>
    match c.rest with
    | .char '"' :: rest =>
      match readName rest (c.offset + 1) with
      | .error f => (.object done.reverse (some f), none)
      | .ok (name, c) =>
        match readValue fuel c with
        | (d, some c) => readMembers fuel ((name, d) :: done) c
        | (d, none) => (.object ((name, d) :: done).reverse none, none)
    | _ => brokenObject done.reverse .memberName c.offset

end

/-- **A whole text:** one value, and nothing but white space after it. -/
def Document.ofText (t : Text) : Document :=
  match readValue (3 * t.length + 3) ⟨t, 0⟩ with
  | (d, none) => ⟨d, none⟩
  | (d, some c) =>
    let c := skipSpace c.rest c.offset
    if c.rest.isEmpty then ⟨d, none⟩ else ⟨d, some ⟨.trailing, c.offset + 1⟩⟩

/-- A whole text that is a string. -/
def Document.ofString (s : String) : Document := Document.ofText (Text.ofString s)

/-- A whole text that may be no UTF-8. -/
def Document.ofBytes (bytes : List UInt8) : Document := Document.ofText (Text.decode bytes)

end Json

end ScarbCrates

import ScarbCrates.Text.Utf8

/-!
# Text that may hold undecodable bytes

File names are byte sequences.  Most are UTF-8 text, but nothing enforces it, so a name read as
text consists of characters and of *stray* bytes, which are part of no character.  JSON input that
is not valid UTF-8 is read the same way.

* `Text.decode`, `Text.encode` — bytes to letters and back.
* `Text.toString?` — the text as a `String`, or the stray bytes that stand in the way.
* `Text.shown` — the text for a message: a stray byte `b` appears as the six characters `\udcXX`.
-/

namespace ScarbCrates

/-- One position of a text: a character, or a byte that belongs to no encoded character. -/
inductive Letter
  | char (c : Char)
  | stray (b : UInt8)
deriving DecidableEq, Repr, Inhabited

/-- A text that may hold stray bytes. -/
abbrev Text := List Letter

namespace Letter

/-- The place of a letter in the order of texts.  Stray bytes take the code points from `DC80` to
`DCFF`, which no character has. -/
def codePoint : Letter → Nat
  | char c => c.toNat
  | stray b => 0xDC00 + b.toNat

/-- The bytes that a letter stands for. -/
def bytes : Letter → List UInt8
  | char c => String.utf8EncodeChar c
  | stray b => [b]

/-- Whether a letter is a given character. -/
def is (l : Letter) (c : Char) : Bool := l == char c

end Letter

namespace Text

/-! ## Bytes and letters -/

/-- A text without stray bytes. -/
def ofChars (cs : List Char) : Text := cs.map Letter.char

/-- A text without stray bytes. -/
def ofString (s : String) : Text := ofChars s.toList

/-- The bytes of a text. -/
def encode (t : Text) : List UInt8 := t.flatMap Letter.bytes

/-- The letters of bytes after `skip` bytes that belong to a character already read. -/
def decodeFrom : (skip : Nat) → List UInt8 → Text
  | _, [] => []
  | skip + 1, _ :: rest => decodeFrom skip rest
  | 0, b :: rest =>
    match Utf8.step b rest with
    | .char c width => .char c :: decodeFrom (width - 1) rest
    | .fault _ _ => .stray b :: decodeFrom 0 rest

/-- The letters of a byte sequence: characters where the bytes encode them, stray bytes
elsewhere. -/
def decode (bytes : List UInt8) : Text := decodeFrom 0 bytes

/-! ## Texts as strings -/

/-- One hexadecimal digit in lower case. -/
def hexDigit (n : Nat) : Char := if n < 10 then Char.ofNat (48 + n) else Char.ofNat (87 + n)

/-- A number with at least `width` hexadecimal digits. -/
def hexPadded (width n : Nat) : List Char :=
  match width with
  | 0 => []
  | width + 1 => hexPadded width (n / 16) ++ [hexDigit (n % 16)]

/-- How a stray byte appears where only characters can. -/
def strayShown (b : UInt8) : List Char := '\\' :: 'u' :: 'd' :: 'c' :: hexPadded 2 b.toNat

/-- A letter as characters. -/
def letterShown : Letter → List Char
  | .char c => [c]
  | .stray b => strayShown b

/-- A text for a message. -/
def shown (t : Text) : String := String.ofList (t.flatMap letterShown)

/-- A run of stray bytes: where it begins in the text, its first byte, and its length. -/
structure StrayRun where
  start : Nat
  first : UInt8
  length : Nat
deriving DecidableEq, Repr

/-- The first run of stray bytes from position `start` on. -/
def strayRunFrom (start : Nat) : Text → Option StrayRun
  | [] => none
  | .char _ :: rest => strayRunFrom (start + 1) rest
  | .stray b :: rest =>
    some ⟨start, b, 1 + (rest.takeWhile fun l => l matches .stray _).length⟩

/-- The characters of a text without stray bytes. -/
def chars (t : Text) : List Char :=
  t.filterMap fun
    | .char c => some c
    | .stray _ => none

/-- **A text as a string,** or the first run of stray bytes, which no string can hold. -/
def toString? (t : Text) : Except StrayRun String :=
  match strayRunFrom 0 t with
  | some run => .error run
  | none => .ok (String.ofList (chars t))

/-- What stands in the way of encoding a text, in words. -/
def StrayRun.message (run : StrayRun) : String :=
  if run.length = 1 then
    "'utf-8' codec can't encode character '" ++ String.ofList (strayShown run.first)
      ++ s!"' in position {run.start}: surrogates not allowed"
  else
    s!"'utf-8' codec can't encode characters in position {run.start}-"
      ++ s!"{run.start + run.length - 1}: surrogates not allowed"

/-! ## Order -/

/-- Texts in the order of their code points. -/
def compare (s t : Text) : Ordering :=
  compareOfLessAndEq (s.map Letter.codePoint) (t.map Letter.codePoint)

end Text

namespace Utf8

/-- A fault of UTF-8 data in words. -/
def Fault.message (f : Fault) : String :=
  match f.bytes with
  | [b] =>
    s!"'utf-8' codec can't decode byte 0x" ++ String.ofList (Text.hexPadded 2 b.toNat)
      ++ s!" in position {f.start}: " ++ f.reason.message
  | bytes =>
    s!"'utf-8' codec can't decode bytes in position {f.start}-{f.start + bytes.length - 1}: "
      ++ f.reason.message

end Utf8

end ScarbCrates

import ScarbCrates.Text.Classes

/-!
# Words that are numbers

A word that begins with a hyphen is taken for an option, unless it is a number below zero.  The
numbers that a user may write are real and complex numbers in decimal notation, integers in the
bases two, eight and sixteen, and slices: bounds with colons between them.

* `isNumeral` — whether a word is a number.
-/

namespace ScarbCrates

namespace CommandLine

/-! ## Digits in groups -/

/-- A digit of any script as the ASCII digit of its value, and white space as a space; other
characters outside ASCII have no place in a number. -/
def asciiForm (c : Char) : Char :=
  if c.toNat < 128 then c
  else
    match Text.digitValue? c with
    | some d => Char.ofNat (48 + d)
    | none => if Text.isBlank c then ' ' else '?'

/-- White space of ASCII. -/
def isAsciiBlank (c : Char) : Bool := c = ' ' || (9 ≤ c.toNat && c.toNat ≤ 13)

/-- The letters of a word in ASCII, without white space at the end. -/
def asciiLetters (w : String) : List Char :=
  ((w.toList.map asciiForm).reverse.dropWhile isAsciiBlank).reverse

/-- Takes out the underscores that group digits: each stands between two digits.  `afterDigit`
tells whether the letter before is a digit. -/
def ungroup? (isDigit : Char → Bool) : (afterDigit : Bool) → List Char → Option (List Char)
  | _, [] => some []
  | afterDigit, c :: rest =>
    if c = '_' then
      if afterDigit && rest.head?.any isDigit then ungroup? isDigit false rest else none
    else (ungroup? isDigit (isDigit c) rest).map (c :: ·)

/-! ## Real numbers -/

/-- A sign. -/
def isSign (c : Char) : Bool := c = '-' || c = '+'

/-- What follows a sign, if there is one. -/
def afterSign (cs : List Char) : List Char :=
  if cs.head?.any isSign then cs.drop 1 else cs

/-- Whether a digit stands in front. -/
def startsWithDigit (cs : List Char) : Bool := cs.head?.any Char.isDigit

/-- What follows a word, in any case. -/
def afterWord? (word : String) (cs : List Char) : Option (List Char) :=
  let n := word.toList.length
  if (cs.take n).map Char.toLower = word.toList then some (cs.drop n) else none

/-- What follows an exponent; where none stands that is whole, nothing is gone past. -/
def afterExponent (cs : List Char) : List Char :=
  let digits := afterSign (cs.drop 1)
  if cs.head?.any (·.toLower = 'e') && startsWithDigit digits then digits.dropWhile Char.isDigit
  else cs

/-- What follows digits with a point among them, before them or behind them, and an exponent. -/
def afterDecimal? (cs : List Char) : Option (List Char) :=
  let rest := cs.dropWhile Char.isDigit
  let fraction := rest.drop 1
  if rest.head? = some '.' then
    if startsWithDigit cs || startsWithDigit fraction then
      some (afterExponent (fraction.dropWhile Char.isDigit))
    else none
  else if startsWithDigit cs then some (afterExponent rest)
  else none

/-- What follows a real number. -/
def afterReal? (cs : List Char) : Option (List Char) :=
  let cs := afterSign cs
  (afterWord? "infinity" cs).orElse fun _ =>
    (afterWord? "inf" cs).orElse fun _ =>
      (afterWord? "nan" cs).orElse fun _ => afterDecimal? cs

/-! ## Other numbers -/

/-- The letter that marks the imaginary part. -/
def isImaginaryUnit (cs : List Char) : Bool := cs.map Char.toLower = ['j']

/-- A complex number: a real part, an imaginary part, or both.  A hyphen and the imaginary unit
alone are rather an option. -/
def isComplex (cs : List Char) : Bool :=
  match afterReal? cs with
  | none => false
  | some rest =>
    if rest.head?.any isSign then isImaginaryUnit ((afterReal? rest).getD (rest.drop 1))
    else rest.isEmpty || isImaginaryUnit rest

/-- The digits of the base that a letter stands for. -/
def digitsOfBase (letter : Char) : Char → Bool :=
  match letter.toLower with
  | 'x' => fun c => c.isDigit || ('a' ≤ c.toLower && c.toLower ≤ 'f')
  | 'o' => fun c => '0' ≤ c && c ≤ '7'
  | 'b' => fun c => c = '0' || c = '1'
  | _ => fun _ => false

/-- An integer with the letter of its base. -/
def isBasedInteger (cs : List Char) : Bool :=
  match afterSign cs with
  | '0' :: letter :: digits =>
    let isDigit := digitsOfBase letter
    match ungroup? isDigit true digits with
    | some digits => !digits.isEmpty && digits.all isDigit
    | none => false
  | _ => false

/-- What follows an integer; where none stands, nothing is gone past. -/
def afterInteger (cs : List Char) : List Char :=
  let digits := afterSign cs
  if startsWithDigit digits then digits.dropWhile Char.isDigit else cs

/-- At most so many bounds, each of which may be left out, with colons between them. -/
def isBounds : (count : Nat) → List Char → Bool
  | 0, _ => false
  | count + 1, cs =>
    match afterInteger cs with
    | [] => true
    | ':' :: rest => isBounds count rest
    | _ => false

/-- A slice has a start and a stop, and may have a step. -/
def isSlice (cs : List Char) : Bool := cs.contains ':' && isBounds 3 cs

/-- **Whether a word is a number.** -/
def isNumeral (w : String) : Bool :=
  let cs := asciiLetters w
  isBasedInteger cs || (ungroup? Char.isDigit false cs).any fun cs => isComplex cs || isSlice cs

end CommandLine

end ScarbCrates

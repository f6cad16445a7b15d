/-!
# Binary64 numbers

Floating-point numbers of sixty-four bits as exact rational values: reading a decimal rounds to
the nearest number (a tie goes to the even one), and nothing depends on the machine's arithmetic.

* `Binary64.ofDecimal?` — the number nearest to a decimal, unless it is too large.
* `Binary64.ofInt?` — the number nearest to an integer.
* `Binary64.toInt?` — the integer that a number is equal to, if there is one.
-/

namespace ScarbCrates

/-- A power of two. -/
def twoTo (n : Nat) : Nat := Nat.pow 2 n

/-- A power of ten. -/
def tenTo (n : Nat) : Nat := Nat.pow 10 n

/-- A binary64 number by its encoding: sign, eleven bits of exponent, fifty-two of fraction. -/
structure Binary64 where
  bits : UInt64
deriving DecidableEq, Repr, Inhabited

namespace Binary64

/-! ## Parts of the encoding -/

/-- The weight of the sign bit. -/
def signWeight : Nat := twoTo 63

/-- The weight of the lowest exponent bit, which is that of a normal number's leading bit too. -/
def leadingWeight : Nat := twoTo 52

/-- The exponent field of infinities and NaN. -/
def specialExponent : Nat := 2047

/-- The sign bit: set for negative numbers and negative zero. -/
def isNegative (x : Binary64) : Bool := signWeight ≤ x.bits.toNat

/-- The exponent field. -/
def exponentField (x : Binary64) : Nat := x.bits.toNat / leadingWeight % 2048

/-- The fraction field. -/
def fractionField (x : Binary64) : Nat := x.bits.toNat % leadingWeight

/-- The largest exponent field marks infinities and NaN. -/
def isFinite (x : Binary64) : Bool := x.exponentField < specialExponent

/-- Not a number. -/
def isNaN (x : Binary64) : Bool := x.exponentField == specialExponent && x.fractionField != 0

/-- Infinite, of either sign. -/
def isInfinite (x : Binary64) : Bool := x.exponentField == specialExponent && x.fractionField == 0

/-- The number with a sign and the other sixty-three bits. -/
def ofMagnitude (negative : Bool) (magnitude : Nat) : Binary64 :=
  ⟨UInt64.ofNat (if negative then magnitude + signWeight else magnitude)⟩

/-- The quiet NaN with a sign and no payload. -/
def signedNaN (negative : Bool) : Binary64 :=
  ofMagnitude negative (specialExponent * leadingWeight + twoTo 51)

/-- The quiet NaN with neither sign nor payload. -/
def nan : Binary64 := signedNaN false

/-- An infinity. -/
def infinity (negative : Bool) : Binary64 := ofMagnitude negative (specialExponent * leadingWeight)

/-- A zero. -/
def zero (negative : Bool) : Binary64 := ofMagnitude negative 0

/-- The magnitude of a finite number is `significand · 2 ^ scale`. -/
def significand (x : Binary64) : Nat :=
  if x.exponentField = 0 then x.fractionField else x.fractionField + leadingWeight

/-- The power of two that goes with `significand`. -/
def scale (x : Binary64) : Int := (max x.exponentField 1 : Nat) - 1075

/-! ## Rounding -/

/-- A quotient rounded to the nearest integer, a tie to the even one. -/
def roundQuotient (num den : Nat) : Nat :=
  let q := num / den
  let r := num % den
  if 2 * r < den then q
  else if den < 2 * r then q + 1
  else q + q % 2

/-- `n · 2 ^ e` for natural `e`, and `n` for negative `e`. -/
def shiftUp (n : Nat) (e : Int) : Nat := n * twoTo e.toNat

/-- The number nearest to `num / den`, which is not zero; `none` when it is past the largest
finite number.  The scale is the one that leaves fifty-three bits before the point, or the
smallest that there is. -/
def ofRatio? (negative : Bool) (num den : Nat) : Option Binary64 :=
  let k : Int := num.log2 - den.log2
  let top : Int := if shiftUp den k ≤ shiftUp num (-k) then k else k - 1
  let e := max (top - 52) (-1074)
  let q := roundQuotient (shiftUp num (-e)) (shiftUp den e)
  let magnitude :=
    if q < leadingWeight then q else (e + 1075).toNat * leadingWeight + (q - leadingWeight)
  if specialExponent * leadingWeight ≤ magnitude then none
  else some (ofMagnitude negative magnitude)

/-- **The number nearest to `±m · 10 ^ e`,** or `none` when it is past the largest finite number.
Decimals outside `10 ^ (-400)` to `10 ^ 400` are decided without computing the power. -/
def ofDecimal? (negative : Bool) (m : Nat) (e : Int) : Option Binary64 :=
  if m = 0 then some (zero negative)
  else if 400 < e then none
  else if e < -(401 + (m.log2 / 3 : Nat)) then some (zero negative)
  else ofRatio? negative (m * tenTo e.toNat) (tenTo (-e).toNat)

/-- The number nearest to an integer. -/
def ofInt? (i : Int) : Option Binary64 := ofDecimal? (i < 0) i.natAbs 0

/-- The integer that a finite number is equal to. -/
def toInt? (x : Binary64) : Option Int :=
  if !x.isFinite then none
  else
    let down := twoTo (-x.scale).toNat
    if x.significand % down = 0 then
      let n := x.significand / down * twoTo x.scale.toNat
      some (if x.isNegative then -n else n)
    else none

/-! ## Order and equality of values -/

/-- The denominator over which every finite number is a fraction. -/
def denominator : Nat := twoTo 1074

/-- A finite number as a fraction over `denominator`. -/
def numerator (x : Binary64) : Int :=
  let n : Nat := x.significand * twoTo (x.scale + 1074).toNat
  if x.isNegative then -n else n

/-- Whether one number is less than another as a value; nothing is less or greater than NaN. -/
def lt (x y : Binary64) : Bool :=
  if x.isNaN || y.isNaN then false
  else if x.isInfinite then x.isNegative && x != y
  else if y.isInfinite then !y.isNegative
  else x.numerator < y.numerator

/-- Whether two numbers are equal as values: both zeros are, and NaN is equal to nothing. -/
def eqValue (x y : Binary64) : Bool :=
  if x.isNaN || y.isNaN then false
  else if x.isFinite && y.isFinite then x.numerator == y.numerator
  else x == y

end Binary64

end ScarbCrates

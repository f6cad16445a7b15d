import ScarbCrates.Decimal.Binary64

/-!
# The shortest decimal of a number

The decimal with the fewest digits that reads back as the same number, and among those the
nearest.  A decimal reads back as `x` when it lies in the interval of rationals that round to `x`;
on the grid of decimals with `n` digits only the two neighbours of `x` need a look, since the
interval is connected and holds `x`.
-/

namespace ScarbCrates

/-- The decimal `digits · 10 ^ exponent`. -/
structure Decimal where
  digits : Nat
  exponent : Int
deriving DecidableEq, Repr

namespace Decimal

/-- `num / den ≤ d · 10 ^ k`, without fractions. -/
def atMost (num den d : Nat) (k : Int) : Bool :=
  num * tenTo (-k).toNat ≤ d * den * tenTo k.toNat

/-- `d · 10 ^ k ≤ num / den`, without fractions. -/
def atLeast (num den d : Nat) (k : Int) : Bool :=
  d * den * tenTo k.toNat ≤ num * tenTo (-k).toNat

/-- The rationals that round to a number: `low / den` to `high / den`, ends included or not. -/
structure Interval where
  low : Nat
  value : Nat
  high : Nat
  den : Nat
  closed : Bool

/-- The interval of a finite number's magnitude.  Below a power of two the neighbour is only half
as far away; an end rounds to the number exactly when the significand is even. -/
def Interval.of (x : Binary64) : Interval :=
  let m := x.significand
  let up := twoTo (x.scale - 2).toNat
  let narrow := m == Binary64.leadingWeight && 1 < x.exponentField
  { low := (4 * m - (if narrow then 1 else 2)) * up
    value := 4 * m * up
    high := (4 * m + 2) * up
    den := twoTo (2 - x.scale).toNat
    closed := m % 2 == 0 }

/-- Whether an interval holds `d · 10 ^ k`. -/
def Interval.holds (i : Interval) (d : Nat) (k : Int) : Bool :=
  if i.closed then atMost i.low i.den d k && atLeast i.high i.den d k
  else !atLeast i.low i.den d k && !atMost i.high i.den d k

/-- The neighbour of the value on the grid `10 ^ k` that reads back; of two, the nearer, and of
two as near the even one. -/
def Interval.hit? (i : Interval) (k : Int) : Option Nat :=
  let num := i.value * tenTo (-k).toNat
  let den := i.den * tenTo k.toNat
  let below := num / den
  let nearest := Binary64.roundQuotient num den
  let other := if nearest = below then below + 1 else below
  if i.holds nearest k then some nearest
  else if i.holds other k then some other
  else none

/-- The exponent of the leading digit: `10 ^ e ≤ num / den < 10 ^ (e + 1)`. -/
def leadingExponent (num den : Nat) : Int :=
  let guess : Int := ((num.log2 : Int) - den.log2) * 30103 / 100000
  if !atLeast num den 1 guess then guess - 1
  else if atLeast num den 1 (guess + 1) then guess + 1
  else guess

/-- The first grid, from the coarsest on, with a decimal that reads back; seventeen digits always
have one. -/
def Interval.search (i : Interval) (lead : Int) : (tries : Nat) → (n : Nat) → Decimal
  | 0, n => ⟨i.value / i.den, lead - n⟩
  | tries + 1, n =>
    let k := lead - n
    match i.hit? k with
    | some d => ⟨d, k⟩
    | none => i.search lead tries (n + 1)

/-- A decimal without zeros at its end; no number below `10 ^ fuel` has more than `fuel` of
them. -/
def stripZeros : (fuel : Nat) → Decimal → Decimal
  | 0, d => d
  | fuel + 1, d =>
    if d.digits ≠ 0 ∧ d.digits % 10 = 0 then stripZeros fuel ⟨d.digits / 10, d.exponent + 1⟩ else d

/-- **The shortest decimal that reads back** as the magnitude of a finite number. -/
def shortest (x : Binary64) : Decimal :=
  if x.significand = 0 then ⟨0, 0⟩
  else
    let i := Interval.of x
    stripZeros 18 (i.search (leadingExponent i.value i.den) 18 0)

/-! ## Layout -/

/-- How a decimal is laid out.  With the decimal point written before the first digit, the
exponent says how far it has to move; from `positionalAbove` up to `positionalUpTo` it is moved,
elsewhere the exponent is written. -/
structure Layout where
  /-- The exponent must be greater than this for positional notation. -/
  positionalAbove : Int
  /-- The exponent may not be greater than this for positional notation. -/
  positionalUpTo : Int
  /-- Whether a positive exponent has a sign. -/
  plusSign : Bool
  /-- The least number of exponent digits. -/
  exponentWidth : Nat

/-- The digits of a number, at least `width` of them. -/
def padded (width n : Nat) : List Char :=
  let ds := Nat.toDigits 10 n
  List.replicate (width - ds.length) '0' ++ ds

/-- The text of a decimal. -/
def Layout.write (l : Layout) (d : Decimal) : List Char :=
  let ds := Nat.toDigits 10 d.digits
  let point : Int := ds.length + d.exponent
  if l.positionalAbove < point ∧ point ≤ l.positionalUpTo then
    if point ≤ 0 then '0' :: '.' :: List.replicate (-point).toNat '0' ++ ds
    else if ds.length ≤ point.toNat then
      ds ++ List.replicate (point.toNat - ds.length) '0' ++ ['.', '0']
    else ds.take point.toNat ++ '.' :: ds.drop point.toNat
  else
    let e := point - 1
    let sign := if e < 0 then ['-'] else if l.plusSign then ['+'] else []
    let mantissa := match ds with
      | [d] => [d]
      | d :: rest => d :: '.' :: rest
      | [] => []
    mantissa ++ 'e' :: sign ++ padded l.exponentWidth e.natAbs

/-- The text of a finite number: its sign and the shortest decimal. -/
def Layout.number (l : Layout) (x : Binary64) : List Char :=
  let text := l.write (if x.significand = 0 then ⟨0, 0⟩ else shortest x)
  if x.isNegative then '-' :: text else text

end Decimal

end ScarbCrates

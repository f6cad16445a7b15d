import ScarbCrates.Text.Letter

/-!
# Hexadecimal and base-64 text

Bytes written with the characters of a text format: two lower-case hexadecimal digits a byte, or
four characters for three bytes.
-/

namespace ScarbCrates

namespace Hex

/-- Two digits a byte. -/
def chars (bytes : List UInt8) : List Char := bytes.flatMap fun b => Text.hexPadded 2 b.toNat

/-- Bytes in hexadecimal. -/
def encode (bytes : List UInt8) : String := String.ofList (chars bytes)

/-- The value of a hexadecimal digit in either case. -/
def digit? (c : Char) : Option Nat :=
  let n := c.toNat
  if 48 ≤ n && n ≤ 57 then some (n - 48)
  else if 97 ≤ n && n ≤ 102 then some (n - 87)
  else if 65 ≤ n && n ≤ 70 then some (n - 55)
  else none

/-- The bytes of pairs of digits; `none` for anything else. -/
def ofChars? : List Char → Option (List UInt8)
  | [] => some []
  | [_] => none
  | a :: b :: rest =>
    match digit? a, digit? b, ofChars? rest with
    | some high, some low, some bytes => some (UInt8.ofNat (high * 16 + low) :: bytes)
    | _, _, _ => none

/-- The bytes that a hexadecimal text writes. -/
def decode? (s : String) : Option (List UInt8) := ofChars? s.toList

end Hex

namespace Base64

/-- The character for six bits. -/
def digit (n : Nat) : Char :=
  if n < 26 then Char.ofNat (65 + n)
  else if n < 52 then Char.ofNat (71 + n)
  else if n < 62 then Char.ofNat (n - 4)
  else if n = 62 then '+'
  else '/'

/-- Four characters for three bytes; the last group is filled up with `=`. -/
def chars : List UInt8 → List Char
  | [] => []
  | [a] =>
    let n := a.toNat * 16
    [digit (n / 64), digit (n % 64), '=', '=']
  | [a, b] =>
    let n := (a.toNat * 256 + b.toNat) * 4
    [digit (n / 4096), digit (n / 64 % 64), digit (n % 64), '=']
  | a :: b :: c :: rest =>
    let n := a.toNat * 65536 + b.toNat * 256 + c.toNat
    digit (n / 262144) :: digit (n / 4096 % 64) :: digit (n / 64 % 64) :: digit (n % 64)
      :: chars rest

/-- Bytes in base 64. -/
def encode (bytes : List UInt8) : String := String.ofList (chars bytes)

end Base64

end ScarbCrates

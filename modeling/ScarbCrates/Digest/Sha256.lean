import ScarbCrates.Digest.Hex

/-!
# SHA-256

The hash function of FIPS 180-4 over a stream of bytes.  The state takes one byte at a time and
works on a block as soon as it is full, so how a stream is cut into pieces cannot show:

* `State.update_append` — feeding two pieces one after the other is feeding them as one.
* `hashInPieces` — the digest of data read piece by piece, as a reader with a buffer does it.
-/

namespace ScarbCrates

namespace Sha256

/-! ## The compression function -/

/-- The eight words that are carried from block to block. -/
structure Chain where
  a : UInt32
  b : UInt32
  c : UInt32
  d : UInt32
  e : UInt32
  f : UInt32
  g : UInt32
  h : UInt32
deriving DecidableEq, Repr

/-- The words before the first block. -/
def Chain.initial : Chain :=
  ⟨0x6a09e667, 0xbb67ae85, 0x3c6ef372, 0xa54ff53a, 0x510e527f, 0x9b05688c, 0x1f83d9ab, 0x5be0cd19⟩

/-- The constants of the sixty-four rounds. -/
def roundConstants : List UInt32 := [
  0x428a2f98, 0x71374491, 0xb5c0fbcf, 0xe9b5dba5, 0x3956c25b, 0x59f111f1, 0x923f82a4, 0xab1c5ed5,
  0xd807aa98, 0x12835b01, 0x243185be, 0x550c7dc3, 0x72be5d74, 0x80deb1fe, 0x9bdc06a7, 0xc19bf174,
  0xe49b69c1, 0xefbe4786, 0x0fc19dc6, 0x240ca1cc, 0x2de92c6f, 0x4a7484aa, 0x5cb0a9dc, 0x76f988da,
  0x983e5152, 0xa831c66d, 0xb00327c8, 0xbf597fc7, 0xc6e00bf3, 0xd5a79147, 0x06ca6351, 0x14292967,
  0x27b70a85, 0x2e1b2138, 0x4d2c6dfc, 0x53380d13, 0x650a7354, 0x766a0abb, 0x81c2c92e, 0x92722c85,
  0xa2bfe8a1, 0xa81a664b, 0xc24b8b70, 0xc76c51a3, 0xd192e819, 0xd6990624, 0xf40e3585, 0x106aa070,
  0x19a4c116, 0x1e376c08, 0x2748774c, 0x34b0bcb5, 0x391c0cb3, 0x4ed8aa4a, 0x5b9cca4f, 0x682e6ff3,
  0x748f82ee, 0x78a5636f, 0x84c87814, 0x8cc70208, 0x90befffa, 0xa4506ceb, 0xbef9a3f7, 0xc67178f2]

/-- Rotation to the right. -/
def rotate (x : UInt32) (n : UInt32) : UInt32 := (x >>> n) ||| (x <<< (32 - n))

/-- The words of a block: four bytes each, the most significant first. -/
def wordsOf : List UInt8 → List UInt32
  | a :: b :: c :: d :: rest =>
    ((a.toUInt32 <<< 24) ||| (b.toUInt32 <<< 16) ||| (c.toUInt32 <<< 8) ||| d.toUInt32)
      :: wordsOf rest
  | _ => []

/-- The message schedule: each new word mixes four earlier ones. -/
def extend : Nat → Array UInt32 → Array UInt32
  | 0, w => w
  | n + 1, w =>
    let i := w.size
    let x := w.getD (i - 15) 0
    let y := w.getD (i - 2) 0
    let s0 := rotate x 7 ^^^ rotate x 18 ^^^ (x >>> 3)
    let s1 := rotate y 17 ^^^ rotate y 19 ^^^ (y >>> 10)
    extend n (w.push (w.getD (i - 16) 0 + s0 + w.getD (i - 7) 0 + s1))

/-- One round with the sum of its constant and its word. -/
def Chain.round (s : Chain) (kw : UInt32) : Chain :=
  let s1 := rotate s.e 6 ^^^ rotate s.e 11 ^^^ rotate s.e 25
  let choice := (s.e &&& s.f) ^^^ (~~~ s.e &&& s.g)
  let t1 := s.h + s1 + choice + kw
  let s0 := rotate s.a 2 ^^^ rotate s.a 13 ^^^ rotate s.a 22
  let majority := (s.a &&& s.b) ^^^ (s.a &&& s.c) ^^^ (s.b &&& s.c)
  ⟨t1 + (s0 + majority), s.a, s.b, s.c, s.d + t1, s.e, s.f, s.g⟩

/-- The rounds over a schedule, from its word `i` on. -/
def Chain.rounds (w : Array UInt32) : (i : Nat) → List UInt32 → Chain → Chain
  | _, [], s => s
  | i, k :: ks, s => Chain.rounds w (i + 1) ks (s.round (k + w.getD i 0))

/-- Takes one block of sixty-four bytes into the chain. -/
def Chain.compress (s : Chain) (block : List UInt8) : Chain :=
  let t := Chain.rounds (extend 48 (wordsOf block).toArray) 0 roundConstants s
  ⟨s.a + t.a, s.b + t.b, s.c + t.c, s.d + t.d, s.e + t.e, s.f + t.f, s.g + t.g, s.h + t.h⟩

/-! ## The stream -/

/-- A hash under way: the chain, the bytes of the unfinished block, and the length so far. -/
structure State where
  chain : Chain
  pending : Array UInt8
  length : Nat
deriving DecidableEq, Repr

/-- Before the first byte. -/
def State.initial : State := ⟨.initial, #[], 0⟩

/-- Takes one byte. -/
def State.push (s : State) (b : UInt8) : State :=
  let ⟨chain, pending, length⟩ := s
  let pending := pending.push b
  if pending.size = 64 then ⟨chain.compress pending.toList, #[], length + 1⟩
  else ⟨chain, pending, length + 1⟩

/-- Takes a piece of the stream. -/
def State.update (s : State) (bytes : List UInt8) : State := bytes.foldl State.push s

/-- A number as `n` bytes, the most significant first. -/
def bigEndian : (n : Nat) → Nat → List UInt8
  | 0, _ => []
  | n + 1, value => bigEndian n (value / 256) ++ [UInt8.ofNat (value % 256)]

/-- What follows the last byte: a one bit, zeros up to eight bytes before a block's end, and the
length in bits. -/
def State.padding (s : State) : List UInt8 :=
  0x80 :: List.replicate ((119 - s.length % 64) % 64) 0 ++ bigEndian 8 (s.length * 8)

/-- The digest of the stream that has been fed. -/
def State.digest (s : State) : List UInt8 :=
  let c := (s.update s.padding).chain
  [c.a, c.b, c.c, c.d, c.e, c.f, c.g, c.h].flatMap fun w => bigEndian 4 w.toNat

/-- The digest in hexadecimal. -/
def State.hexDigest (s : State) : String := Hex.encode s.digest

/-- How a stream is cut does not matter. -/
theorem State.update_append (s : State) (xs ys : List UInt8) :
    s.update (xs ++ ys) = (s.update xs).update ys := List.foldl_append

/-! ## Whole data and data in pieces -/

/-- The digest of some bytes, in hexadecimal. -/
def hash (bytes : List UInt8) : String := (State.initial.update bytes).hexDigest

/-- Feeds data in pieces of `size` bytes, the last one perhaps shorter.  Pieces of no bytes never
come to the end, so there `size = 0` stops at once. -/
def State.updateInPieces (size : Nat) (s : State) (bytes : List UInt8) : State :=
  if _h : bytes = [] ∨ size = 0 then s
  else State.updateInPieces size (s.update (bytes.take size)) (bytes.drop size)
termination_by bytes.length
decreasing_by
  cases bytes with
  | nil => simp_all
  | cons b rest => simp only [List.length_drop, List.length_cons]; omega

/-- The first number that no machine word with a sign holds, `2 ^ 63`. -/
def wordEnd : Nat := 0x8000000000000000

/-- The longest piece that can be asked for: what a machine word counts, less what a byte string
needs besides its bytes. -/
def longestPiece : Nat := wordEnd - 34

/-- What is asked for when data is read: all of it, or so many bytes. -/
inductive PieceSize
  | all
  | bytes (n : Nat) (fits : n ≤ longestPiece)
deriving DecidableEq, Repr

/-- Why a number is no size of pieces: it is none that a machine word holds, or it is below `-1`, or
no byte string is as long. -/
inductive SizeFault
  | word
  | negative
  | tooLong
deriving DecidableEq, Repr

/-- A fault in words. -/
def SizeFault.message : SizeFault → String
  | .word => "cannot fit 'int' into an index-sized integer"
  | .negative => "read length must be non-negative or -1"
  | .tooLong => "byte string is too large"

/-- **The size that a number stands for:** `-1` stands for all. -/
def PieceSize.ofInt : Int → Except SizeFault PieceSize
  | .ofNat n =>
    if fits : n ≤ longestPiece then .ok (.bytes n fits)
    else if n < wordEnd then .error .tooLong
    else .error .word
  | .negSucc 0 => .ok .all
  | .negSucc (n + 1) => if n + 1 < wordEnd then .error .negative else .error .word

/-- **The digest of data that is read in pieces.**  A read of no bytes finds nothing, as at the end of
the data. -/
def hashInPieces (size : PieceSize) (bytes : List UInt8) : String :=
  match size with
  | .all => hash bytes
  | .bytes n _ => (State.initial.updateInPieces n bytes).hexDigest

/-- The beginning of a digest: the first `length` digits, or all but the last `-length`. -/
def shorten (length : Option Int) (digest : String) : String :=
  let cs := digest.toList
  match length with
  | none => digest
  | some (.ofNat n) => String.ofList (cs.take n)
  | some (.negSucc n) => String.ofList (cs.take (cs.length - (n + 1)))

/-- The piece size of a file reader: one mebibyte. -/
def fileBuffer : PieceSize := .bytes 1048576 (by decide)

end Sha256

end ScarbCrates

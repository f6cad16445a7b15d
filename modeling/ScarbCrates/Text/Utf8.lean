/-!
# UTF-8, one character at a time

The encoding as a decision about the bytes in front: the character they begin with, or why they
begin with none.

* `Utf8.step` — a lead byte and what follows it: a character and how many bytes it took, or the
  reason why there is none and how many bytes that reason covers.
* `Utf8.firstFault` — the first place where a sequence of bytes is no text.
-/

namespace ScarbCrates

namespace Utf8

/-! ## Reading one character -/

/-- Why the bytes in front encode no character. -/
inductive Reason
  | startByte
  | continuationByte
  | endOfData
deriving DecidableEq, Repr

/-- What stands in front of a byte sequence: a character with the number of its bytes, or a
reason with the number of bytes that it covers. -/
inductive Step
  | char (c : Char) (width : Nat)
  | fault (reason : Reason) (width : Nat)
deriving DecidableEq, Repr

/-- Bytes `80` to `BF` continue a character. -/
def isContinuation (b : UInt8) : Bool := 0x80 ≤ b && b ≤ 0xBF

/-- The second byte after a lead byte: four lead bytes narrow its range, so that every character
has one spelling and no surrogate or value past `10FFFF` has any. -/
def isSecond (lead b : UInt8) : Bool :=
  if lead = 0xE0 then 0xA0 ≤ b && b ≤ 0xBF
  else if lead = 0xED then 0x80 ≤ b && b ≤ 0x9F
  else if lead = 0xF0 then 0x90 ≤ b && b ≤ 0xBF
  else if lead = 0xF4 then 0x80 ≤ b && b ≤ 0x8F
  else isContinuation b

/-- The six bits that a continuation byte carries. -/
def payload (b : UInt8) : Nat := b.toNat % 64

/-- Three bytes: the lead byte has passed as one of `E0` to `EF`. -/
def stepThree (lead : UInt8) : List UInt8 → Step
  | [] => .fault .endOfData 1
  | b :: rest =>
    if !isSecond lead b then .fault .continuationByte 1
    else match rest with
      | [] => .fault .endOfData 2
      | c :: _ =>
        if !isContinuation c then .fault .continuationByte 2
        else .char (Char.ofNat ((lead.toNat - 0xE0) * 4096 + payload b * 64 + payload c)) 3

/-- Four bytes: the lead byte has passed as one of `F0` to `F4`. -/
def stepFour (lead : UInt8) : List UInt8 → Step
  | [] => .fault .endOfData 1
  | b :: rest =>
    if !isSecond lead b then .fault .continuationByte 1
    else match rest with
      | [] => .fault .endOfData 2
      | c :: rest =>
        if !isContinuation c then .fault .continuationByte 2
        else match rest with
          | [] => .fault .endOfData 3
          | d :: _ =>
            if !isContinuation d then .fault .continuationByte 3
            else .char (Char.ofNat ((lead.toNat - 0xF0) * 262144 + payload b * 4096
              + payload c * 64 + payload d)) 4

/-- **What a lead byte and the bytes after it begin with.** -/
def step (lead : UInt8) (rest : List UInt8) : Step :=
  if lead < 0x80 then .char (Char.ofNat lead.toNat) 1
  else if lead < 0xC2 then .fault .startByte 1
  else if lead < 0xE0 then
    match rest with
    | [] => .fault .endOfData 1
    | b :: _ =>
      if !isContinuation b then .fault .continuationByte 1
      else .char (Char.ofNat ((lead.toNat - 0xC0) * 64 + payload b)) 2
  else if lead < 0xF0 then stepThree lead rest
  else if lead < 0xF5 then stepFour lead rest
  else .fault .startByte 1

/-! ## Faults -/

/-- Bytes that are no text: where they start, which they are, and why. -/
structure Fault where
  start : Nat
  bytes : List UInt8
  reason : Reason
deriving DecidableEq, Repr

/-- The first fault from position `start` on, after `skip` bytes that belong to a character
already read. -/
def faultFrom (start : Nat) : (skip : Nat) → List UInt8 → Option Fault
  | _, [] => none
  | skip + 1, _ :: rest => faultFrom (start + 1) skip rest
  | 0, b :: rest =>
    match step b rest with
    | .char _ width => faultFrom (start + 1) (width - 1) rest
    | .fault reason width => some ⟨start, (b :: rest).take width, reason⟩

/-- The first place where the bytes are no text. -/
def firstFault (bytes : List UInt8) : Option Fault := faultFrom 0 0 bytes

/-- The reason in words. -/
def Reason.message : Reason → String
  | .startByte => "invalid start byte"
  | .continuationByte => "invalid continuation byte"
  | .endOfData => "unexpected end of data"

end Utf8

end ScarbCrates

import ScarbCrates.Datum.Literal
import ScarbCrates.Datum.Order
import ScarbCrates.Digest.Hex

/-!
# Plain data

Data made of nothing but null, truth values, numbers, texts, lists and dictionaries: the form in
which values are handed to code that knows no other.  Sets become ascending lists, typed data
becomes dictionaries, and a dictionary's keys come in ascending order.
-/

namespace ScarbCrates

namespace Datum

/-- A scalar in its plain form; `none` for what is made of parts. -/
def plainScalar? : Datum → Option (Except DatumFault Datum)
  | .path p => some (.ok (.text p.text))
  | .edition e => some (.ok (ofString e.name))
  | .durability d => some (.ok (.int d.level))
  | .bytes _ data => some (.ok (ofString (Base64.encode data)))
  | .foreign _ => some (.error .unsupported)
  | .sequence _ _ => none
  | .dict _ => none
  | .record _ _ => none
  | d => some (.ok d)

/-- The text that stands for a number as a key. -/
def numeralKey? : Datum → Option Datum
  | .int i => some (ofString (toString i))
  | .durability d => some (ofString (toString d.level))
  | .float x => some (ofString (floatLiteral x))
  | _ => none

/-- What is left of a key: with `textKeys` it must be a text by now. -/
def checkKey (textKeys : Bool) (key : Datum) : Except DatumFault Unit :=
  if textKeys && (text? key).isNone then .error .keysNotScalar else .ok ()

mutual

/-- The part of a key that changes, by its class: a key with such a part cannot be one. -/
def unhashable? : Datum → Option String
  | .sequence .tuple items => anyUnhashable? items
  | .sequence .list _ => some "list"
  | .sequence .set _ => some "set"
  | .dict _ => some "dict"
  | .record _ _ => some "dict"
  | _ => none

/-- The first part of some items that changes. -/
def anyUnhashable? : List Datum → Option String
  | [] => none
  | d :: rest => (unhashable? d).or (anyUnhashable? rest)

end

/-- The outcomes of a list, or its first fault. -/
def sequenceAll {α : Type} : List (Except DatumFault α) → Except DatumFault (List α)
  | [] => .ok []
  | r :: rest => do
    let a ← r
    let as ← sequenceAll rest
    return a :: as

mutual

/-- **A value in its plain form.**  With `textKeys`, keys that are numbers become texts and other
keys are refused; without, keys stay what they are. -/
def builtins (textKeys : Bool) : Datum → Except DatumFault Datum
  | .sequence .set items => do
    let sorted ← sortFirst (builtinsEach textKeys items)
    let plain ← sequenceAll (sorted.map Prod.snd)
    return .sequence .list plain
  | .sequence _ items => do
    let plain ← sequenceAll ((builtinsEach textKeys items).map Prod.snd)
    return .sequence .list plain
  | .dict pairs => do
    let plain ← builtinsPairs textKeys pairs
    let sorted ← sortFirst (plain.foldl (fun ps p => putPair ps p.1 p.2) [])
    return .dict sorted
  | .record _ fields => do
    let plain ← builtinsFields textKeys fields
    return .dict plain
  | d => (plainScalar? d).getD (.ok d)

/-- A key in its plain form: a tuple stays one, and with `textKeys` a number becomes a text. -/
def builtinsKey (textKeys : Bool) : Datum → Except DatumFault Datum
  | .sequence .tuple items => do
    let plain ← builtinsKeys textKeys items
    return .sequence .tuple plain
  | .sequence _ items => do
    let plain ← sequenceAll ((builtinsEach textKeys items).map Prod.snd)
    return .sequence .list plain
  | .dict pairs => do
    let plain ← builtinsPairs textKeys pairs
    return .dict plain
  | .record _ fields => do
    let plain ← builtinsFields textKeys fields
    return .dict plain
  | d =>
    match if textKeys then numeralKey? d else none with
    | some k => .ok k
    | none => (plainScalar? d).getD (.ok d)

/-- The items of a key. -/
def builtinsKeys (textKeys : Bool) : List Datum → Except DatumFault (List Datum)
  | [] => .ok []
  | d :: rest => do
    let a ← builtinsKey textKeys d
    let as ← builtinsKeys textKeys rest
    return a :: as

/-- Values, each with its plain form. -/
def builtinsEach (textKeys : Bool) : List Datum → List (Datum × Except DatumFault Datum)
  | [] => []
  | d :: rest => (d, builtins textKeys d) :: builtinsEach textKeys rest

/-- Pairs in their plain form.  Only when both parts of a pair have one is it noticed that the key
is none. -/
def builtinsPairs (textKeys : Bool) :
    List (Datum × Datum) → Except DatumFault (List (Datum × Datum))
  | [] => .ok []
  | (k, v) :: rest => do
    let key ← builtinsKey textKeys k
    checkKey textKeys key
    let plain ← builtins textKeys v
    match unhashable? key with
    | some kind => throw (.unhashable kind)
    | none =>
      let rest ← builtinsPairs textKeys rest
      return (key, plain) :: rest

/-- Fields in their plain form. -/
def builtinsFields (textKeys : Bool) :
    List (String × Datum) → Except DatumFault (List (Datum × Datum))
  | [] => .ok []
  | (name, v) :: rest => do
    let plain ← builtins textKeys v
    let rest ← builtinsFields textKeys rest
    return (ofString name, plain) :: rest

end

/-- The form of a value that JSON has none for: a path is its text, a member of an enumeration its
value, and bytes are written in hexadecimal. -/
def fallback : Datum → Except DatumFault Datum
  | .path p => .ok (.text p.text)
  | .edition e => .ok (ofString e.name)
  | .durability d => .ok (.int d.level)
  | .bytes _ data => .ok (ofString (Hex.encode data))
  | _ => .error .unsupported

end Datum

end ScarbCrates

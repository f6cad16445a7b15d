import ScarbCrates.Datum.Builtins
import ScarbCrates.Digest.Sha256
import ScarbCrates.Json.Writer

/-!
# Data as JSON, and its fingerprint

What is written for a value is a JSON value in which every order is settled: dictionaries by their
keys, sets by their elements, typed data by its fields.  Two values with the same content have the
same text, so the digest of the text identifies the content.

* `Datum.toJson` — the JSON value of a value.
* `Datum.dump` — its text.
* `Datum.fingerprint` — the digest of its canonical text.
-/

namespace ScarbCrates

namespace Datum

/-- A text as a string, unless it has stray bytes. -/
def encodeText (t : Text) : Except DatumFault String :=
  match Text.toString? t with
  | .ok s => .ok s
  | .error run => .error (.unencodable run)

/-- Keys as names; a dictionary with a key that is no text has no order. -/
def namedKeys {α : Type} : List (Datum × α) → Except DatumFault (List (String × α))
  | [] => .ok []
  | (k, a) :: rest =>
    match text? k with
    | none => .error .keysNotText
    | some t => do
      let name ← encodeText t
      let rest ← namedKeys rest
      return (name, a) :: rest

/-- Members with their values. -/
def sequenceMembers : List (String × Except DatumFault Json.Value) →
    Except DatumFault (List (String × Json.Value))
  | [] => .ok []
  | (name, v) :: rest => do
    let v ← v
    let rest ← sequenceMembers rest
    return (name, v) :: rest

mutual

/-- **The JSON value of a value,** in which every order is settled. -/
def toJson : Datum → Except DatumFault Json.Value
  | .null => .ok .null
  | .bool b => .ok (.bool b)
  | .int i => .ok (.int i)
  | .float x => .ok (.float x)
  | .text t => (encodeText t).map .text
  | .bytes _ data => .ok (.text (Base64.encode data))
  | .path p => (encodeText p.text).map .text
  | .edition e => .ok (.text e.name)
  | .durability d => .ok (.int d.level)
  | .foreign _ => .error .unsupported
  | .sequence .set items => do
    let sorted ← sortFirst (toJsonEach items)
    let vs ← sequenceAll (sorted.map Prod.snd)
    return .array vs
  | .sequence _ items => do
    let vs ← sequenceAll ((toJsonEach items).map Prod.snd)
    return .array vs
  | .dict pairs => do
    let members ← namedKeys (toJsonPairs pairs)
    let ms ← sequenceMembers (Json.sortMembers members)
    return .object ms
  | .record _ fields => do
    let ms ← toJsonFields fields
    return .object ms

/-- Values, each with its JSON value. -/
def toJsonEach : List Datum → List (Datum × Except DatumFault Json.Value)
  | [] => []
  | d :: rest => (d, toJson d) :: toJsonEach rest

/-- Keys, each with the JSON value of its value. -/
def toJsonPairs : List (Datum × Datum) → List (Datum × Except DatumFault Json.Value)
  | [] => []
  | (k, v) :: rest => (k, toJson v) :: toJsonPairs rest

/-- Fields with their JSON values. -/
def toJsonFields : List (String × Datum) → Except DatumFault (List (String × Json.Value))
  | [] => .ok []
  | (name, v) :: rest => do
    let j ← toJson v
    let rest ← toJsonFields rest
    return (name, j) :: rest

end

/-- The text of a value. -/
def dump (d : Datum) (pretty : Bool) : Except DatumFault String :=
  (toJson d).map fun v => v.render pretty

/-- The canonical JSON value of a value: plain, and with all members sorted. -/
def canonical (textKeys : Bool) (d : Datum) : Except DatumFault Json.Value := do
  let plain ← builtins textKeys d
  let v ← toJson plain
  return v.sorted

/-- The bytes that identify a value. -/
def canonicalBytes (textKeys : Bool) (d : Datum) : Except DatumFault (List UInt8) :=
  (canonical textKeys d).map fun v => Text.encode (Text.ofChars v.compact)

/-- The digest of a value's canonical text. -/
def hash (textKeys : Bool) (d : Datum) : Except DatumFault String :=
  (canonicalBytes textKeys d).map Sha256.hash

/-- **The fingerprint of a payload:** its hash, with numbers as keys taken for texts. -/
def fingerprint (d : Datum) : Except DatumFault String := hash true d

end Datum

end ScarbCrates

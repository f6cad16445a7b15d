import ScarbCrates.Datum.Literal
import ScarbCrates.Json.Reader
import ScarbCrates.Metadata.Schema
import ScarbCrates.Schema.Report
import ScarbCrates.Text.Classes

/-!
# What Scarb prints

Scarb prints JSON objects, one a line, among lines of other text.  An object of type `error`
carries a message; an object with a version and a workspace is a metadata document, and the last
one counts.

* `Scan.ofText` — the document and the messages of an output.
* `Metadata.ofDocument` — the typed form of a document, or why it has none.
-/

namespace ScarbCrates

/-! ## Lines -/

/-- What an output holds: the metadata document, if there is one, and the error messages. -/
structure Scan where
  document : Option Json.Value
  messages : List String
deriving Repr

/-- What one line contributes. -/
inductive Scan.Line
  | nothing
  | message (text : String)
  | document (doc : Json.Value)

namespace Scan

/-- The members of an object that a line holds; lines that hold anything else, or JSON with a
fault, have none. -/
def membersOf? (line : List Char) : Option (List (String × Json.Value)) :=
  let trimmed := Text.trimmed line
  if trimmed.head? ≠ some '\x7b' then none
  else
    let doc := Json.Document.ofText (Text.ofChars trimmed)
    match doc.root.value [], doc.trailing with
    | .ok (.object members), none => some members
    | _, _ => none

/-- Whether an object is an error. -/
def isError (members : List (String × Json.Value)) : Bool :=
  match Assoc.get? members "type" with
  | some (.text kind) => kind == "error"
  | _ => false

/-- The text of an error; without a message it is empty. -/
def errorText (members : List (String × Json.Value)) : String :=
  match Assoc.get? members "message" with
  | some v => (Datum.ofJson v).spoken
  | none => ""

/-- Whether an object is a metadata document. -/
def isDocument (members : List (String × Json.Value)) : Bool :=
  Assoc.has members "version" && Assoc.has members "workspace"

/-- What a line contributes: an error is one even if it looks like a document too. -/
def Line.of (line : List Char) : Line :=
  match membersOf? line with
  | none => .nothing
  | some members =>
    if isError members then .message (errorText members)
    else if isDocument members then .document (.object members)
    else .nothing

/-- A scan after one more line. -/
def add (s : Scan) : Line → Scan
  | .nothing => s
  | .message text => ⟨s.document, s.messages ++ [text]⟩
  | .document doc => ⟨some doc, s.messages⟩

/-- A scan of nothing. -/
def empty : Scan := ⟨none, []⟩

/-- **The document and the messages of an output.** -/
def ofText (output : String) : Scan :=
  (Text.lines output.toList).foldl (fun s line => s.add (Line.of line)) empty

end Scan

/-! ## Documents -/

/-- Why there is no metadata. -/
inductive MetadataFault
  /-- The output holds no document. -/
  | absent (messages : List String)
  /-- A value of another class stands in place of the document. -/
  | notDictionary (className : String)
  /-- The document has another version, or none. -/
  | version (got : Datum)
  /-- The document is not of the expected form. -/
  | malformed (report : Report)

/-- What counts as the place of a fault in the document as a whole. -/
def MetadataFault.wholePlace : String := "$"

/-- A fault in words. -/
def MetadataFault.message : MetadataFault → String
  | .absent messages =>
    let details := String.intercalate "; " messages
    "scarb metadata produced no document: "
      ++ (if details.isEmpty then "no metadata document in scarb output" else details)
  | .notDictionary className => "'" ++ className ++ "' object has no attribute 'get'"
  | .version got =>
    "unsupported scarb metadata version " ++ got.literal ++ s!", expected {Metadata.formatVersion}"
  | .malformed report =>
    "malformed scarb metadata at " ++ report.place.getD wholePlace ++ ": "
      ++ report.summary.getD ""

namespace Metadata

/-- The metadata of a document with a version. -/
def ofVersioned {ι ρ : Type} [Readable ι ρ] [Retained ρ] (version : Datum) (doc : ι) :
    Except MetadataFault Metadata :=
  if !version.eq (.int formatVersion) then .error (.version version)
  else match decoder false [] doc with
    | .ok m => .ok m
    | .error fault => .error (.malformed (Report.ofMessage fault.message))

/-- The version that a document states. -/
def versionOf (doc : Json.Value) : Datum :=
  match doc.member? "version" with
  | some v => .ofJson v
  | none => .null

/-- **The metadata of a document.** -/
def ofDocument (doc : Json.Value) : Except MetadataFault Metadata := ofVersioned (versionOf doc) doc

/-- The metadata of an output. -/
def ofScan (s : Scan) : Except MetadataFault Metadata :=
  match s.document with
  | some doc => ofDocument doc
  | none => .error (.absent s.messages)

/-- The version that a dictionary in memory states. -/
def versionOfPairs (pairs : List (Datum × Datum)) : Datum :=
  match pairs.find? fun p => p.1.eq (.ofString "version") with
  | some p => p.2
  | none => .null

/-- The metadata of data in memory, where nothing stands for an output without a document. -/
def ofDatum (messages : List String) : Datum → Except MetadataFault Metadata
  | .null => .error (.absent messages)
  | .dict pairs => ofVersioned (versionOfPairs pairs) (Datum.dict pairs)
  | doc => .error (.notDictionary doc.className)

end Metadata

end ScarbCrates

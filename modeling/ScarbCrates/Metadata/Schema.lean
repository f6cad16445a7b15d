import ScarbCrates.Datum.Encode
import ScarbCrates.Metadata.Basic
import ScarbCrates.Schema.Decode

/-!
# The metadata format

How metadata is read from a document and written back.  The format belongs to Scarb and grows with
it, so members that are not known are passed over.  Members that hold their defaults are not
written.
-/

namespace ScarbCrates

/-- What is left of a value of which no type is asked, as data in memory. -/
class Retained (ρ : Type) where
  /-- The value as data. -/
  toDatum : ρ → Datum

instance : Retained Json.Value := ⟨Datum.ofJson⟩

instance : Retained Datum := ⟨id⟩

namespace Metadata

/-! ## Reading -/

section Reading

variable {ι ρ : Type} [Readable ι ρ] [Retained ρ]

/-- A value that is kept as it is. -/
def rawDecoder : Decoder ι Datum := fun p v => (Decoder.anything p v).map Retained.toDatum

/-- Reads a target. -/
def targetDecoder : Decoder ι Target :=
  Decoder.record "TargetMetadata" .ignored <|
    (Fields.both (.required "kind" Decoder.asText)
      (.both (.required "name" Decoder.asText)
        (.both (.required "source_path" Decoder.asPath)
          (.optional "params" (Decoder.membersOf rawDecoder) [])))).map
      fun f => ⟨f.1, f.2.1, f.2.2.1, f.2.2.2⟩

/-- Reads a component. -/
def componentDecoder (lax : Bool) : Decoder ι Component :=
  Decoder.record "CompilationUnitComponentMetadata" .ignored <|
    (Fields.both (.required "package" Decoder.asText)
      (.both (.required "name" Decoder.asText)
        (.both (.required "source_path" Decoder.asPath)
          (.optional "cfg" (Decoder.listOf? lax rawDecoder) none)))).map
      fun f => ⟨f.1, f.2.1, f.2.2.1, f.2.2.2⟩

/-- Reads a compilation unit. -/
def unitDecoder (lax : Bool) : Decoder ι CompilationUnit :=
  Decoder.record "CompilationUnitMetadata" .ignored <|
    (Fields.both (.required "id" Decoder.asText)
      (.both (.required "package" Decoder.asText)
        (.both (.required "target" targetDecoder)
          (.both (.optional "components" (Decoder.listOf (componentDecoder lax)) [])
            (.optional "cfg" (Decoder.listOf rawDecoder) []))))).map
      fun f => ⟨f.1, f.2.1, f.2.2.1, f.2.2.2.1, f.2.2.2.2⟩

/-- Reads a package. -/
def packageDecoder : Decoder ι Package :=
  Decoder.record "PackageMetadata" .ignored <|
    (Fields.both (.required "id" Decoder.asText)
      (.both (.required "name" Decoder.asText)
        (.both (.required "version" Decoder.asText)
          (.both (.required "manifest_path" Decoder.asPath)
            (.both (.required "root" Decoder.asPath)
              (.both (.optional "edition" Decoder.asText? none)
                (.both (.optional "source" Decoder.asText? none)
                  (.optional "experimental_features"
                    (Decoder.listOf Decoder.asText) [])))))))).map
      fun f => ⟨f.1, f.2.1, f.2.2.1, f.2.2.2.1, f.2.2.2.2.1, f.2.2.2.2.2.1, f.2.2.2.2.2.2.1,
        f.2.2.2.2.2.2.2⟩

/-- Reads a workspace. -/
def workspaceDecoder : Decoder ι Workspace :=
  Decoder.record "WorkspaceMetadata" .ignored <|
    (Fields.both (.required "manifest_path" Decoder.asPath)
      (.both (.required "root" Decoder.asPath)
        (.optional "members" (Decoder.listOf Decoder.asText) []))).map
      fun f => ⟨f.1, f.2.1, f.2.2⟩

/-- **Reads a document.** -/
def decoder (lax : Bool) : Decoder ι Metadata :=
  Decoder.record "Metadata" .ignored <|
    (Fields.both (.required "version" (Decoder.asInt lax))
      (.both (.required "workspace" workspaceDecoder)
        (.both (.optional "packages" (Decoder.listOf packageDecoder) [])
          (.optional "compilation_units" (Decoder.listOf (unitDecoder lax)) [])))).map
      fun f => ⟨f.1, f.2.1, f.2.2.1, f.2.2.2⟩

end Reading

/-! ## Writing -/

/-- A list that is written only when it is not empty. -/
def unlessEmpty (name : String) (items : List Datum) : List (String × Datum) :=
  if items.isEmpty then [] else [(name, .sequence .tuple items)]

/-- A text that is written only when there is one. -/
def unlessNone (name : String) (s : Option String) : List (String × Datum) :=
  match s with
  | none => []
  | some s => [(name, .ofString s)]

/-- The fields that a target is written with. -/
def Target.toDatum (t : Target) : Datum :=
  .record "TargetMetadata" ([("kind", .ofString t.kind), ("name", .ofString t.name),
    ("source_path", .path t.sourcePath)]
    ++ if t.params.isEmpty then [] else [("params", .ofMembers t.params)])

/-- The fields that a component is written with. -/
def Component.toDatum (c : Component) : Datum :=
  .record "CompilationUnitComponentMetadata" ([("package", .ofString c.package),
    ("name", .ofString c.name), ("source_path", .path c.sourcePath)]
    ++ match c.cfg with
      | none => []
      | some items => [("cfg", .sequence .tuple items)])

/-- The fields that a compilation unit is written with. -/
def CompilationUnit.toDatum (u : CompilationUnit) : Datum :=
  .record "CompilationUnitMetadata" ([("id", .ofString u.id), ("package", .ofString u.package),
    ("target", u.target.toDatum)]
    ++ unlessEmpty "components" (u.components.map Component.toDatum)
    ++ unlessEmpty "cfg" u.cfg)

/-- The fields that a package is written with. -/
def Package.toDatum (k : Package) : Datum :=
  .record "PackageMetadata" ([("id", .ofString k.id), ("name", .ofString k.name),
    ("version", .ofString k.version), ("manifest_path", .path k.manifestPath),
    ("root", .path k.root)]
    ++ unlessNone "edition" k.edition ++ unlessNone "source" k.source
    ++ unlessEmpty "experimental_features" (k.experimentalFeatures.map Datum.ofString))

/-- The fields that a workspace is written with. -/
def Workspace.toDatum (w : Workspace) : Datum :=
  .record "WorkspaceMetadata" ([("manifest_path", .path w.manifestPath), ("root", .path w.root)]
    ++ unlessEmpty "members" (w.members.map Datum.ofString))

/-- The fields that a document is written with. -/
def toDatum (m : Metadata) : Datum :=
  .record "Metadata" ([("version", .int m.version), ("workspace", m.workspace.toDatum)]
    ++ unlessEmpty "packages" (m.packages.map Package.toDatum)
    ++ unlessEmpty "compilation_units" (m.compilationUnits.map CompilationUnit.toDatum))

/-! ## Summary -/

/-- A package in brief. -/
def Package.summary (k : Package) : Datum :=
  .ofMembers [("id", .ofString k.id), ("name", .ofString k.name),
    ("edition", .ofOption k.edition),
    ("experimental_features", .ofList (k.experimentalFeatures.map Datum.ofString))]

/-- A compilation unit in brief. -/
def CompilationUnit.summary (u : CompilationUnit) : Datum :=
  .ofMembers [("id", .ofString u.id), ("target_kind", .ofString u.target.kind),
    ("components", .ofList (u.components.map fun c => .ofString c.name))]

/-- The workspace in brief. -/
def Workspace.summary (w : Workspace) : Datum :=
  .ofMembers [("root", .path w.root), ("manifest_path", .path w.manifestPath),
    ("members", .ofList (w.members.map Datum.ofString))]

/-- **The parts of a document that crates are derived from,** for a reader. -/
def summary (m : Metadata) : Datum :=
  .ofMembers [("version", .int m.version), ("workspace", m.workspace.summary),
    ("packages", .ofList (m.packages.map Package.summary)),
    ("compilation_units", .ofList (m.compilationUnits.map CompilationUnit.summary))]

end Metadata

end ScarbCrates

import ScarbCrates.Datum.Basic
import ScarbCrates.Path.Home
import ScarbCrates.Schema.Decode

/-!
# Manifests

A project is known by its manifest: a `Scarb.toml`, or a `cairo_project.toml` for a project that
Scarb does not manage.  Any other file name is taken for a Scarb manifest.
-/

namespace ScarbCrates

/-- A project by its manifest file. -/
inductive Manifest
  | scarb (path : Path)
  | cairoProject (path : Path)
deriving DecidableEq, Inhabited

namespace Manifest

/-- The name `Scarb.toml`. -/
def scarbToml : Name :=
  ⟨[0x53, 0x63, 0x61, 0x72, 0x62, 0x2E, 0x74, 0x6F, 0x6D, 0x6C], by decide, by decide, by decide⟩

/-- The name `Scarb.lock`. -/
def scarbLock : Name :=
  ⟨[0x53, 0x63, 0x61, 0x72, 0x62, 0x2E, 0x6C, 0x6F, 0x63, 0x6B], by decide, by decide, by decide⟩

/-- The name `cairo_project.toml`. -/
def cairoProjectToml : Name :=
  ⟨[0x63, 0x61, 0x69, 0x72, 0x6F, 0x5F, 0x70, 0x72, 0x6F, 0x6A, 0x65, 0x63, 0x74, 0x2E, 0x74, 0x6F,
    0x6D, 0x6C], by decide, by decide, by decide⟩

/-- The manifest file. -/
def path : Manifest → Path
  | scarb p => p
  | cairoProject p => p

/-- The word that tells the two kinds apart where they are written. -/
def tag : Manifest → String
  | scarb _ => "scarb"
  | cairoProject _ => "cairo_project"

/-- The class of a manifest. -/
def className : Manifest → String
  | scarb _ => "ScarbManifestPath"
  | cairoProject _ => "CairoProjectManifestPath"

/-- The lock file beside a manifest, unless the manifest has no name that could be replaced. -/
def lockPath? (p : Path) : Option Path := p.withName? scarbLock

/-- A path without a final name has no file beside it. -/
def noNameMessage (p : Path) : String := p.described ++ " has an empty name"

/-- **The project of a manifest file** given by an absolute path. -/
def ofPath (p : Path) : Manifest :=
  if p.name? = some cairoProjectToml then .cairoProject p else .scarb p

/-- The project of a manifest file as a user names it. -/
def ofArgument (homes : Homes) (directory p : Path) : Except Path.HomeFault Manifest :=
  (Path.expandHome homes p).map fun q => ofPath (q.absoluteFrom directory)

/-- The fields that a manifest is written with. -/
def toDatum (m : Manifest) : Datum :=
  .record m.className [(Datum.tagName, .ofString m.tag), ("path", .path m.path)]

variable {ι ρ : Type} [Readable ι ρ]

/-- The fields of a manifest of one kind; the kind itself may be left out. -/
def fields (tag : String) : Fields ι Path :=
  (Fields.both (.optional Datum.tagName (Decoder.asTag fun s => if s = tag then some () else none) ())
    (.required "path" Decoder.asPath)).map fun f => f.2

/-- Reads a Scarb manifest. -/
def scarbDecoder : Decoder ι Path := Decoder.record "ScarbManifestPath" .refused (fields "scarb")

/-- Reads the manifest of another project. -/
def cairoProjectDecoder : Decoder ι Path :=
  Decoder.record "CairoProjectManifestPath" .refused (fields "cairo_project")

/-- Reads a manifest of the kind that a flag tells. -/
def decoderFor (isScarb : Bool) : Decoder ι Manifest := fun p v =>
  if isScarb then (scarbDecoder p v).map .scarb else (cairoProjectDecoder p v).map .cairoProject

/-- Reads a manifest of either kind, which its tag tells. -/
def decoder : Decoder ι Manifest := fun p v =>
  match Readable.look v with
  | .object members stop => do
    let isScarb ← Decoder.findTag Datum.tagName
      (fun s => if s = "scarb" then some true else if s = "cairo_project" then some false else none)
      p stop members
    decoderFor isScarb p v
  | .record "ScarbManifestPath" _ => decoderFor true p v
  | .record "CairoProjectManifestPath" _ => decoderFor false p v
  | s => Decoder.misfit [.object] p s

end Manifest

end ScarbCrates

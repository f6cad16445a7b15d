import ScarbCrates.Metadata.Schema
import ScarbCrates.Notice
import ScarbCrates.Settings.Basic

/-!
# Settings from metadata

The settings of a crate as its package, its unit and its component declare them.  Nothing here
fails: what cannot be made sense of draws a warning and gives way to a default.
-/

namespace ScarbCrates

namespace CrateSettings

/-- The part of the program that the notices are from. -/
def origin : String := "project_model.settings"

/-- **The edition of a package.**  Without a package or a declaration it is the default; a name
that no edition has draws a warning. -/
def editionOf (package : Option Metadata.Package) (crateName : String) : Noted Edition :=
  match package.bind (·.edition) with
  | none => pure .default
  | some name =>
    match Edition.ofName? name with
    | some e => pure e
    | none => do
      Noted.note .warning origin ("failed to parse edition of package: " ++ crateName
        ++ ": unknown edition " ++ Text.quote name)
      return .default

/-- The flag that an entry stands for: a name, or a key and a value. -/
def flagOf : String ⊕ (String × String) → Cfg
  | .inl key => ⟨key, none⟩
  | .inr (key, value) => ⟨key, some value⟩

/-- **The flags that raw entries stand for.**  Each must be a text or a pair of texts; if one is
not, nothing is known of the flags. -/
def cfgSetOf {ι ρ : Type} [Readable ι ρ] (raw : List ι) (crateName : String) :
    Noted (Option CfgSet) :=
  match Decoder.itemsFrom Decoder.textOrPair [] 0 raw with
  | .ok entries => pure (some (CfgSet.ofItems (entries.map flagOf)))
  | .error fault => do
    Noted.note .warning origin
      ("scarb metadata cfg did not convert identically to cairo one for crate: " ++ crateName
        ++ ": " ++ fault.message)
    return none

/-- The features that a package turns on; without a package none are. -/
def featuresOf (package : Option Metadata.Package) : Features :=
  match package with
  | none => .off
  | some k => .ofNames k.experimentalFeatures

/-- **The settings of a component.**  Its own flags, if it has any, stand in place of its
unit's. -/
def ofMetadata (package : Option Metadata.Package) (unit : Metadata.CompilationUnit)
    (component : Metadata.Component) : Noted CrateSettings := do
  let edition ← editionOf package component.name
  let cfgSet ← cfgSetOf (component.cfg.getD unit.cfg) component.name
  return ⟨edition, cfgSet, featuresOf package⟩

end CrateSettings

end ScarbCrates

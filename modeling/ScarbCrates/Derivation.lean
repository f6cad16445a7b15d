import ScarbCrates.Crate
import ScarbCrates.Settings.OfMetadata
import ScarbCrates.SourceRoot

/-!
# Crates of a workspace

Every component of a compilation unit becomes a crate, unless the unit is a compiler plugin or the
component's source file is rejected.  A problem with one component draws a warning and leaves the
others alone.
-/

namespace ScarbCrates

namespace Derivation

open Metadata

/-- The part of the program that the notices are from. -/
def origin : String := "project_model.resolver"

/-- The kind of target that is a plugin of the compiler and holds no crates. -/
def pluginKind : String := "cairo-plugin"

/-- A notice in a computation that may fail. -/
def note (level : Level) (message : String) : ExceptT AccessFault Noted Unit :=
  ExceptT.lift (Noted.note level origin message)

/-- The stem that a crate has to mention: `lib` needs none. -/
def customStem (stem : String) : Option String := if stem = Crate.libStem then none else some stem

/-- **The crate of a component,** if its source file is accepted. -/
def componentCrate (d : Disk) (m : Metadata) (unit : CompilationUnit) (c : Component) :
    ExceptT AccessFault Noted (Option Crate) := do
  let package := m.package? c.package
  if package.isNone then
    note .warning ("package for component is missing in scarb metadata: " ++ c.name)
  match ← ExceptT.mk (pure (SourceRoot.check d c.sourcePath c.name)) with
  | .error rejection =>
    note .warning rejection.reason
    return none
  | .ok source =>
    let settings ← ExceptT.lift (CrateSettings.ofMetadata package unit c)
    return some ⟨c.name, source.root, customStem source.stem, settings⟩

/-- The crates of some components of a unit. -/
def componentCrates (d : Disk) (m : Metadata) (unit : CompilationUnit) :
    List Component → ExceptT AccessFault Noted (List Crate)
  | [] => pure []
  | c :: rest => do
    let crate ← componentCrate d m unit c
    let crates ← componentCrates d m unit rest
    return crate.toList ++ crates

/-- The crates of a unit. -/
def unitCrates (d : Disk) (m : Metadata) (unit : CompilationUnit) :
    ExceptT AccessFault Noted (List Crate) :=
  if unit.target.kind = pluginKind then do
    note .debug ("skipping cairo plugin compilation unit: " ++ unit.id)
    return []
  else componentCrates d m unit unit.components

/-- The crates of some units. -/
def unitsCrates (d : Disk) (m : Metadata) :
    List CompilationUnit → ExceptT AccessFault Noted (List Crate)
  | [] => pure []
  | unit :: rest => do
    let crates ← unitCrates d m unit
    let more ← unitsCrates d m rest
    return crates ++ more

/-- The warning about a workspace without a standard library. -/
def missingCore : String :=
  "the `core` crate is missing in scarb metadata, will try to use unmanaged `core`"

/-- **The crates of a workspace,** in the order of its units and their components. -/
def crates (d : Disk) (m : Metadata) : ExceptT AccessFault Noted (List Crate) := do
  let crates ← unitsCrates d m m.compilationUnits
  if !crates.any Crate.isCore then note .warning missingCore
  return crates

end Derivation

end ScarbCrates

import ScarbCrates.Datum.Basic

/-!
# Workspace metadata

What `scarb metadata` says about a workspace: its packages, and the compilation units that are
built from them.  A component is one named source file of a unit.  Configuration flags and target
parameters are kept as the values that they were; to make sense of them is a matter of settings.
-/

namespace ScarbCrates

namespace Metadata

/-- The version of the document's format. -/
def formatVersion : Int := 1

/-- What a compilation unit is built as. -/
structure Target where
  kind : String
  name : String
  sourcePath : Path
  params : List (String × Datum)
deriving Inhabited

/-- One named source file of a compilation unit. -/
structure Component where
  package : String
  name : String
  sourcePath : Path
  cfg : Option (List Datum)
deriving Inhabited

/-- Components that are compiled together. -/
structure CompilationUnit where
  id : String
  package : String
  target : Target
  components : List Component
  cfg : List Datum
deriving Inhabited

/-- A package. -/
structure Package where
  id : String
  name : String
  version : String
  manifestPath : Path
  root : Path
  edition : Option String
  source : Option String
  experimentalFeatures : List String
deriving DecidableEq, Inhabited

/-- The workspace itself. -/
structure Workspace where
  manifestPath : Path
  root : Path
  members : List String
deriving DecidableEq, Inhabited

end Metadata

/-- A metadata document. -/
structure Metadata where
  version : Int
  workspace : Metadata.Workspace
  packages : List Metadata.Package
  compilationUnits : List Metadata.CompilationUnit
deriving Inhabited

namespace Metadata

/-- The first package with an id. -/
def package? (m : Metadata) (id : String) : Option Package := m.packages.find? (·.id == id)

/-- The members of the workspace that have a package, in the order of the workspace. -/
def memberPackages (m : Metadata) : List Package := m.workspace.members.filterMap m.package?

end Metadata

end ScarbCrates

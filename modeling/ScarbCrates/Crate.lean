import ScarbCrates.Assoc
import ScarbCrates.Settings.Basic

/-!
# Crates

A crate is what the compiler takes in as one piece: a name, a directory of sources, and settings.
Its entry file is `lib.cairo` in that directory unless another stem is given.
-/

namespace ScarbCrates

/-- A crate. -/
structure Crate where
  name : String
  root : Path
  customMainFileStem : Option String
  settings : CrateSettings
deriving DecidableEq, Inhabited

namespace Crate

/-- The name of the standard library's crate. -/
def coreName : String := "core"

/-- The stem of an entry file that needs no mention. -/
def libStem : String := "lib"

/-- Whether a crate is the standard library. -/
def isCore (c : Crate) : Bool := c.name == coreName

/-- The stem of the entry file; an empty one counts as none. -/
def mainFileStem (c : Crate) : String :=
  match c.customMainFileStem with
  | none => libStem
  | some s => if s.isEmpty then libStem else s

/-- The entry file. -/
def mainFile (c : Crate) : Path := c.root.join (Path.ofString (c.mainFileStem ++ ".cairo"))

/-- Crates by their names.  Of several crates with a name the last counts, at the place of the
first. -/
def byName (cs : List Crate) : List (String × Crate) :=
  Assoc.ofList (cs.map fun c => (c.name, c))

/-- The fields that a crate is written with. -/
def toDatum (c : Crate) : Datum :=
  let stem := match c.customMainFileStem with
    | none => []
    | some s => [("custom_main_file_stem", .ofString s)]
  .record "Crate" ([("name", .ofString c.name), ("root", .path c.root)] ++ stem
    ++ [("settings", c.settings.toDatum)])

variable {ι ρ : Type} [Readable ι ρ]

/-- The fields of a crate. -/
def fields (lax : Bool) : Fields ι Crate :=
  (Fields.both (.required "name" Decoder.asText)
    (.both (.required "root" Decoder.asPath)
      (.both (.optional "custom_main_file_stem" Decoder.asText? none)
        (.optional "settings" (CrateSettings.decoder lax) .default)))).map
    fun f => ⟨f.1, f.2.1, f.2.2.1, f.2.2.2⟩

/-- Reads a crate. -/
def decoder (lax : Bool) : Decoder ι Crate := Decoder.record "Crate" .refused (fields lax)

end Crate

end ScarbCrates

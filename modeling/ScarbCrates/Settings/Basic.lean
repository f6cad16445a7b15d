import ScarbCrates.Settings.Cfg

/-!
# Crate settings

What the compiler has to know about a crate besides its files: the edition, the configuration
flags, and the experimental features that are on.
-/

namespace ScarbCrates

/-! ## Experimental features -/

/-- The experimental features of the language. -/
structure Features where
  negativeImpls : Bool
  coupons : Bool
deriving DecidableEq, Repr

namespace Features

/-- All features off. -/
def off : Features := ⟨false, false⟩

instance : Inhabited Features := ⟨off⟩

/-- The features that some names turn on; other names mean nothing. -/
def ofNames (names : List String) : Features :=
  ⟨names.contains "negative_impls", names.contains "coupons"⟩

/-- A flag that is written only when it is on. -/
def flag (name : String) (b : Bool) : List (String × Datum) :=
  if b then [(name, .bool true)] else []

/-- The fields that features are written with. -/
def toDatum (f : Features) : Datum :=
  .record "ExperimentalFeaturesConfig"
    (flag "negative_impls" f.negativeImpls ++ flag "coupons" f.coupons)

variable {ι ρ : Type} [Readable ι ρ]

/-- The fields of features. -/
def fields (lax : Bool) : Fields ι Features :=
  (Fields.both (.optional "negative_impls" (Decoder.asBool lax) false)
    (.optional "coupons" (Decoder.asBool lax) false)).map fun f => ⟨f.1, f.2⟩

/-- Reads features. -/
def decoder (lax : Bool) : Decoder ι Features :=
  Decoder.record "ExperimentalFeaturesConfig" .refused (fields lax)

end Features

/-! ## Settings -/

/-- The settings of a crate.  Without a flag set the flags are unknown, and nothing is compiled
conditionally; that is not the same as a set without flags. -/
structure CrateSettings where
  edition : Edition
  cfgSet : Option CfgSet
  features : Features
deriving DecidableEq, Repr

namespace CrateSettings

/-- The settings of a crate of which nothing is known. -/
def default : CrateSettings := ⟨.default, none, .off⟩

instance : Inhabited CrateSettings := ⟨default⟩

/-- The fields that settings are written with. -/
def toDatum (s : CrateSettings) : Datum :=
  let edition := if s.edition = .default then [] else [("edition", .edition s.edition)]
  let cfgSet := match s.cfgSet with
    | none => []
    | some c => [("cfg_set", c.toDatum)]
  .record "CrateSettings" (edition ++ cfgSet ++ [("experimental_features", s.features.toDatum)])

variable {ι ρ : Type} [Readable ι ρ]

/-- Reads an edition by its name. -/
def editionDecoder : Decoder ι Edition := Decoder.asChoice Edition.ofName?

/-- The fields of settings. -/
def fields (lax : Bool) : Fields ι CrateSettings :=
  (Fields.both (.optional "edition" editionDecoder .default)
    (.both (.optional "cfg_set" (Decoder.record? lax "CfgSet" .refused CfgSet.fields) none)
      (.optional "experimental_features" (Features.decoder lax) .off))).map
    fun f => ⟨f.1, f.2.1, f.2.2⟩

/-- Reads settings. -/
def decoder (lax : Bool) : Decoder ι CrateSettings :=
  Decoder.record "CrateSettings" .refused (fields lax)

end CrateSettings

end ScarbCrates
